import OfferAnswer.Json.Value

/-!
# Taking JSON apart

Readers of the values that configurations are made of. A record is an object of its fields, or an
array of them in order. As an object it may have other members too, but none of its own twice; as
an array it may end early, but have nothing after its last field. What a missing field means is
for the record to say.

A choice is its name, or an object with the name as its only key and nothing for a value.
-/

namespace OfferAnswer.Json

def toBool? : Json → Option Bool
  | .bool b => some b
  | _ => none

def toText? : Json → Option String
  | .string s => s
  | _ => none

/-- The natural number below a bound, written in digits alone. -/
def toNat? (bound : Nat) : Json → Option Nat
  | .number n => n.toNat?.filter (· < bound)
  | _ => none

def toUInt8? (v : Json) : Option UInt8 := (v.toNat? UInt8.size).map UInt8.ofNat

def toUInt16? (v : Json) : Option UInt16 := (v.toNat? UInt16.size).map UInt16.ofNat

def toUInt32? (v : Json) : Option UInt32 := (v.toNat? UInt32.size).map UInt32.ofNat

def toUInt64? (v : Json) : Option UInt64 := (v.toNat? UInt64.size).map UInt64.ofNat

/-- The items of an array, each read in the same way. -/
def toList? {α : Type} (item : Json → Option α) : Json → Option (List α)
  | .array vs => vs.mapM item
  | _ => none

/-- A value that may be `null`. -/
def toOption? {α : Type} (f : Json → Option α) : Json → Option (Option α)
  | .null => some none
  | v => (f v).map some

def isNull : Json → Bool
  | .null => true
  | _ => false

/-- Whether a value says nothing, by `null` or by an object without members. -/
def isVoid : Json → Bool
  | .null => true
  | .object [] => true
  | _ => false

/-- A choice by name, where `void` says which values stand for nothing. -/
def toChoice? {α : Type} (void : Json → Bool) (ofName : String → Option α) : Json → Option α
  | .string (some s) => ofName s
  | .object [(some s, v)] => if void v then ofName s else none
  | _ => none

/-! ## Records -/

/-- The value of the first member with a key. -/
def member? (key : String) (members : List (Option String × Json)) : Option Json :=
  (members.find? (·.1 == some key)).map (·.2)

/-- Whether members make a record: their keys are texts, and no field stands twice. -/
def areFieldsOnce (names : List String) (members : List (Option String × Json)) : Bool :=
  members.all (·.1.isSome) &&
    names.all fun name ↦ (members.filter (·.1 == some name)).length ≤ 1

/-- The fields of a record in order, each if it is there. -/
def toFields? (names : List String) : Json → Option (List (Option Json))
  | .array vs =>
    if vs.length ≤ names.length then some ((List.range names.length).map fun i ↦ vs[i]?) else none
  | .object members =>
    if areFieldsOnce names members then some (names.map fun name ↦ member? name members) else none
  | _ => none

/-- A field that must be there. -/
def required {α : Type} (f : Json → Option α) : Option Json → Option α
  | some v => f v
  | none => none

/-- A field that may be missing. -/
def orDefault {α : Type} (default : α) (f : Json → Option α) : Option Json → Option α
  | some v => f v
  | none => some default

end OfferAnswer.Json
