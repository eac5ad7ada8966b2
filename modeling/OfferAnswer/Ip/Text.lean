import OfferAnswer.Ip.Address
import OfferAnswer.Text.Numeral
import OfferAnswer.Text.Words

/-!
# The text of an address

IPv4 is written as four decimal bytes, and read back without leading zeros. IPv6 is written in
its canonical form: lower case groups without leading zeros, the longest run of two or more zero
groups (the first of them, if several are longest) as a double colon, and an IPv4-mapped address
with its last two groups in IPv4 form. Reading takes every usual form: up to four digits a group
in either case, a double colon for one or more groups, and a trailing IPv4 form in place of two
groups. A socket address may name the zone of an IPv6 address after a percent sign.
-/

namespace OfferAnswer

/-! ## Writing -/

/-- The written form of an IPv4 address, as characters. -/
def Ipv4.chars (x : Ipv4) : List Char :=
  Text.joinWith ['.'] ([x.a, x.b, x.c, x.d].map fun b ↦ Numeral.decimalChars b.toNat)

namespace Ipv6

/-- The number of zero groups from position `i` on. -/
def zerosAt (gs : List UInt16) (i : Nat) : Nat := ((gs.drop i).takeWhile (· == 0)).length

/-- The start and length of the first longest run of zero groups. -/
def zeroRun (gs : List UInt16) : Nat × Nat :=
  (List.range gs.length).foldl
    (fun best i ↦ if best.2 < zerosAt gs i then (i, zerosAt gs i) else best) (0, 0)

/-- Groups with colons between them. -/
def groupChars (gs : List UInt16) : List Char :=
  Text.joinWith [':'] (gs.map fun g ↦ Numeral.hexChars g.toNat)

/-- The written form of an IPv6 address, as characters. -/
def chars (x : Ipv6) : List Char :=
  match x.mapped? with
  | some y => "::ffff:".toList ++ y.chars
  | none =>
    let (start, len) := zeroRun x.groups
    if 1 < len then
      groupChars (x.groups.take start) ++ [':', ':'] ++ groupChars (x.groups.drop (start + len))
    else groupChars x.groups

end Ipv6

namespace IpAddress

/-- The written form of an address, as characters. -/
def chars : IpAddress → List Char
  | v4 x => x.chars
  | v6 x => x.chars

def text (x : IpAddress) : String := String.ofList x.chars

end IpAddress

/-- The written form of a socket address; an IPv6 address stands in brackets with its zone. -/
def SocketAddress.text (x : SocketAddress) : String :=
  let port := Numeral.decimal x.port.toNat
  let zone := if x.zone = 0 then "" else "%" ++ Numeral.decimal x.zone.toNat
  match x.ip with
  | .v4 _ => x.ip.text ++ ":" ++ port
  | .v6 _ => "[" ++ x.ip.text ++ zone ++ "]:" ++ port

/-! ## Reading -/

namespace Ipv4

/-- Reads a byte: up to three digits, without leading zeros. -/
def readByte (cs : List Char) : Option (UInt8 × List Char) :=
  let ds := cs.takeWhile Char.isDigit
  if ds = [] ∨ 3 < ds.length ∨ (ds.head? = some '0' ∧ 1 < ds.length) ∨
      256 ≤ Numeral.decimalValue ds then none
  else some (UInt8.ofNat (Numeral.decimalValue ds), cs.dropWhile Char.isDigit)

def readPointByte : List Char → Option (UInt8 × List Char)
  | '.' :: cs => readByte cs
  | _ => none

/-- Reads an IPv4 address from the front of a text. -/
def read (cs : List Char) : Option (Ipv4 × List Char) := do
  let (a, cs) ← readByte cs
  let (b, cs) ← readPointByte cs
  let (c, cs) ← readPointByte cs
  let (d, cs) ← readPointByte cs
  return (⟨a, b, c, d⟩, cs)

end Ipv4

namespace Ipv6

/-- Reads a group: up to four hexadecimal digits. -/
def readGroup (cs : List Char) : Option (UInt16 × List Char) :=
  let isHex := fun c ↦ (Numeral.hexValue? c).isSome
  let ds := (cs.takeWhile isHex).filterMap Numeral.hexValue?
  if ds = [] ∨ 4 < ds.length then none
  else some (UInt16.ofNat (Numeral.value 16 ds), cs.dropWhile isHex)

/-- What was read of a run of groups. -/
structure Run where
  groups : List UInt16
  /-- Whether the run ended in an IPv4 form. -/
  embedded : Bool
  /-- The text that follows. -/
  rest : List Char

/-- Takes the colon between two groups; the first group has none. -/
def readColon (first : Bool) : List Char → Option (List Char)
  | ':' :: cs => if first then some (':' :: cs) else some cs
  | cs => if first then some cs else none

/-- Reads as many groups as there are, at most `room`. An IPv4 form takes the room of two. -/
def readGroups : (room : Nat) → (first : Bool) → List Char → Run
  | 0, _, cs => ⟨[], false, cs⟩
  | room + 1, first, cs =>
    let body := readColon first cs
    match if room = 0 then none else body.bind Ipv4.read with
    | some (x, rest) => ⟨x.groups, true, rest⟩
    | none =>
      match body.bind readGroup with
      | some (g, rest) =>
        let more := readGroups room false rest
        { more with groups := g :: more.groups }
      | none => ⟨[], false, cs⟩

/-- Reads an IPv6 address from the front of a text. -/
def read (cs : List Char) : Option (Ipv6 × List Char) :=
  let front := readGroups 8 true cs
  if front.groups.length = 8 then (ofEnds? front.groups []).map (·, front.rest)
  else if front.embedded then none
  else
    match front.rest with
    | ':' :: ':' :: cs =>
      let back := readGroups (7 - front.groups.length) true cs
      (ofEnds? front.groups back.groups).map (·, back.rest)
    | _ => none

end Ipv6

namespace IpAddress

/-- Reads an address that is the whole text. -/
def ofChars? (cs : List Char) : Option IpAddress :=
  match Ipv4.read cs with
  | some (x, rest) => if rest = [] then some (.v4 x) else none
  | none =>
    match Ipv6.read cs with
    | some (x, rest) => if rest = [] then some (.v6 x) else none
    | none => none

/-- Reads an address that is the whole text. -/
def ofText? (s : String) : Option IpAddress := ofChars? s.toList

end IpAddress

namespace SocketAddress

/-- Reads a colon and a port, to the end of the text. -/
def readPort : List Char → Option UInt16
  | ':' :: cs => (Numeral.readDigits UInt16.size cs).map UInt16.ofNat
  | _ => none

/-- Reads the zone after an IPv6 address, if one is there. -/
def readZone : List Char → Option (UInt32 × List Char)
  | '%' :: cs =>
    (Numeral.readDigits UInt32.size (cs.takeWhile Char.isDigit)).map fun n ↦
      (UInt32.ofNat n, cs.dropWhile Char.isDigit)
  | cs => some (0, cs)

/-- Reads a socket address that is the whole text. -/
def ofText? (s : String) : Option SocketAddress :=
  match s.toList with
  | '[' :: cs => do
    let (x, rest) ← Ipv6.read cs
    let (zone, rest) ← readZone rest
    match rest with
    | ']' :: rest => return { ip := .v6 x, port := ← readPort rest, zone := zone }
    | _ => none
  | cs => do
    let (x, rest) ← Ipv4.read cs
    return { ip := .v4 x, port := ← readPort rest }

end SocketAddress

end OfferAnswer
