import OfferAnswer.Json.Number

/-!
# JSON values

A JSON value as it was written: the members of an object stay a list, in order and with
repetitions, because whoever reads an object decides what a repeated key means. A string whose
escapes leave half of a surrogate pair has no text; it is kept, since a reader that skips it need
not care.
-/

namespace OfferAnswer

/-- A JSON value. -/
inductive Json where
  | null
  | bool (b : Bool)
  | number (n : JsonNumber)
  /-- A string, if its escapes make a text. -/
  | string (text : Option String)
  | array (items : List Json)
  /-- An object, with its members in order. -/
  | object (members : List (Option String × Json))
deriving Repr

namespace Json

def str (s : String) : Json := .string (some s)

def nat (n : Nat) : Json := .number (.ofNat n)

/-- An object of named members. -/
def obj (members : List (String × Json)) : Json :=
  .object (members.map fun (k, v) ↦ (some k, v))

/-- A value, or `null` when there is none. -/
def opt {α : Type} (f : α → Json) : Option α → Json
  | some a => f a
  | none => .null

mutual

/-- The number of arrays and objects that stand one inside the other. -/
def depth : Json → Nat
  | .array items => 1 + depthItems items
  | .object members => 1 + depthMembers members
  | _ => 0

/-- The greatest depth of some items. -/
def depthItems : List Json → Nat
  | [] => 0
  | v :: vs => max (depth v) (depthItems vs)

/-- The greatest depth of some members. -/
def depthMembers : List (Option String × Json) → Nat
  | [] => 0
  | (_, v) :: vs => max (depth v) (depthMembers vs)

end

mutual

/-- Whether all strings in the value are texts and all numbers are in range. -/
def isPlain : Json → Bool
  | .number n => n.isFinite
  | .string s => s.isSome
  | .array items => arePlainItems items
  | .object members => arePlainMembers members
  | _ => true

/-- Whether all items are plain. -/
def arePlainItems : List Json → Bool
  | [] => true
  | v :: vs => isPlain v && arePlainItems vs

/-- Whether all keys and values are plain. -/
def arePlainMembers : List (Option String × Json) → Bool
  | [] => true
  | (k, v) :: vs => k.isSome && isPlain v && arePlainMembers vs

end

end Json

end OfferAnswer
