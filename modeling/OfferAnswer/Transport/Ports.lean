import OfferAnswer.Error

/-!
# Local ports

The ports in use, shared by all sessions, and ranges to take them from. A port is taken as the
lowest free one of a range; port 0 is never handed out. The used ports are kept in increasing
order without repetition, so that two allocators with the same ports in use are equal, and giving
back what was just taken restores the allocator itself.

The allocator knows of no ports but those it has handed out itself. The option to probe, before a
port is handed out, whether it can be bound is left out: it asks the operating system.
-/

namespace OfferAnswer

/-- The ports from a lowest to a highest one, both included. -/
structure PortRange where
  /-- The lowest port. -/
  min : UInt16
  /-- The highest port. -/
  max : UInt16
deriving DecidableEq, Repr

namespace PortRange

def length (r : PortRange) : Nat := r.max.toNat + 1 - r.min.toNat

def isEmpty (r : PortRange) : Bool := r.length == 0

def text (r : PortRange) : String :=
  "[" ++ Numeral.decimal r.min.toNat ++ ", " ++ Numeral.decimal r.max.toNat ++ "]"

/-- A range to configure has a port, and port 0 is not in it. -/
def isUsable (r : PortRange) : Bool := r.min != 0 && !r.isEmpty

end PortRange

/-- The ports in use. An allocator does not probe whether a port can be bound. -/
structure PortAllocator where
  /-- The ports, in increasing order. -/
  used : List UInt16 := []
deriving DecidableEq, Repr

namespace PortAllocator

/-- Puts a port into its place among ports in increasing order. -/
def insert (p : UInt16) : List UInt16 → List UInt16
  | [] => [p]
  | q :: qs => if p < q then p :: q :: qs else if p = q then q :: qs else q :: insert p qs

/-- The lowest port that can be handed out among `count` ports from `start` on. -/
def firstFree (used : List UInt16) : (count start : Nat) → Option UInt16
  | 0, _ => none
  | count + 1, start =>
    if start ≠ 0 ∧ UInt16.ofNat start ∉ used then some (UInt16.ofNat start)
    else firstFree used count (start + 1)

/-- Takes the lowest free port of a range. -/
def allocate (a : PortAllocator) (r : PortRange) : Except NegotiationError UInt16 × PortAllocator :=
  match firstFree a.used r.length r.min.toNat with
  | some p => (.ok p, { a with used := insert p a.used })
  | none => (.error (.noPorts r.min r.max), a)

/-- Gives a port back. A port that is not in use stays free. -/
def release (a : PortAllocator) (p : UInt16) : PortAllocator :=
  { a with used := a.used.filter (· != p) }

def isUsed (a : PortAllocator) (p : UInt16) : Bool := a.used.contains p

def inUse (a : PortAllocator) : Nat := a.used.length

end PortAllocator

end OfferAnswer
