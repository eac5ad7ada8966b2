import OfferAnswer.Json.Reader
import OfferAnswer.Sdp.Reader
import OfferAnswer.Sdp.Text

/-!
# Descriptions in JSON

Between peers a description travels as a JSON object with two members: `type`, which says whether
it is an offer or an answer, and `sdp`, its text. Other members are passed over. Their order does
not matter, but neither may be repeated.

Members are judged as they come, so a repeated key is reported before anything that follows it,
and the type is compared only when the object has ended.
-/

namespace OfferAnswer

/-- Which side of an exchange a description is. -/
inductive DescriptionRole where
  | offer
  | answer
deriving DecidableEq, Repr

def DescriptionRole.text : DescriptionRole → String
  | offer => "offer"
  | answer => "answer"

/-- Why a JSON text is not the wanted description. -/
inductive EnvelopeError where
  /-- It is no JSON object, or a member has a value of the wrong kind. -/
  | malformed
  /-- A member is repeated. -/
  | duplicate (member : String)
  /-- A member is missing. -/
  | missing (member : String)
  /-- It is a description of another type. -/
  | otherType (expected : DescriptionRole) (found : String)
  /-- The text of the description cannot be read. -/
  | unreadable
deriving DecidableEq, Repr

/-! ## Error texts

Whoever shows an error adds where in the text it was found, as in `at line 3 column 7`. An error
whose own text already ends so is taken to say where it was found, and the added position replaces
that end. -/

/-- Reads a number at the end of a text, given backwards. It must fit into 64 bits. -/
def dropFinalNumber? (cs : List Char) : Option (List Char) :=
  (Numeral.readDigits UInt64.size (cs.takeWhile Char.isDigit).reverse).map fun _ ↦
    cs.dropWhile Char.isDigit

/-- Takes a position off the end of a text, given backwards. -/
def dropPosition? (cs : List Char) : Option (List Char) := do
  let cs ← dropFinalNumber? cs
  let cs ← Text.stripLead " column ".toList.reverse cs
  let cs ← dropFinalNumber? cs
  Text.stripLead " at line ".toList.reverse cs

/-- A text without the position that it may end with. -/
def withoutPosition (s : String) : String :=
  match dropPosition? s.toList.reverse with
  | some cs => String.ofList cs.reverse
  | none => s

/-- The text of an error, without its position; a malformed one has none of its own. -/
def EnvelopeError.text? : EnvelopeError → Option String
  | malformed | unreadable => none
  | duplicate m => some ("duplicate field `" ++ m ++ "`")
  | missing m => some ("missing field `" ++ m ++ "`")
  | otherType expected found =>
    some (withoutPosition ("Expected type " ++ expected.text ++ ", got: " ++ found))

namespace Envelope

/-- The two members as far as they were found. -/
structure Found where
  /-- The value of `type`. -/
  type : Option String := none
  /-- The value of `sdp`. -/
  sdp : Option String := none
deriving DecidableEq, Repr

/-- Takes note of a key, before its value is known. -/
def Found.checkKey (f : Found) : Option String → Except EnvelopeError Unit
  | none => .error .malformed
  | some key =>
    if key = "type" ∧ f.type.isSome then .error (.duplicate "type")
    else if key = "sdp" ∧ f.sdp.isSome then .error (.duplicate "sdp")
    else .ok ()

/-- Takes note of a member. -/
def Found.add (f : Found) (member : Option String × Json) : Except EnvelopeError Found := do
  f.checkKey member.1
  match member with
  | (some "type", .string (some s)) => return { f with type := some s }
  | (some "sdp", .string (some s)) => return { f with sdp := some s }
  | (some "type", _) | (some "sdp", _) => .error .malformed
  | _ => return f

/-- Takes note of members in order. -/
def Found.addAll (f : Found) : List (Option String × Json) → Except EnvelopeError Found
  | [] => .ok f
  | m :: ms => do
    let f ← f.add m
    f.addAll ms

/-- The description that the members make. -/
def Found.description (f : Found) (role : DescriptionRole) : Except EnvelopeError Description :=
  match f.type, f.sdp with
  | none, _ => .error (.missing "type")
  | _, none => .error (.missing "sdp")
  | some type, some sdp =>
    if type ≠ role.text then .error (.otherType role type)
    else
      match Description.ofText? sdp with
      | some d => .ok d
      | none => .error .unreadable

/-- The description in an object with given members. -/
def ofMembers (role : DescriptionRole) (members : List (Option String × Json)) :
    Except EnvelopeError Description := do
  let f ← Found.addAll {} members
  f.description role

/-- The description in a JSON text. -/
def ofText (role : DescriptionRole) (s : String) : Except EnvelopeError Description :=
  match Json.scanObject? s with
  | none => .error .malformed
  | some scan => do
    let f ← Found.addAll {} scan.members
    match scan.ending with
    | .closed rest =>
      let d ← f.description role
      if Json.skip rest = [] then return d else .error .malformed
    | .cut key =>
      f.checkKey key
      .error .malformed
    | .broken => .error .malformed

def toJson (role : DescriptionRole) (d : Description) : Json :=
  .obj [("type", .str role.text), ("sdp", .str d.text)]

end Envelope

end OfferAnswer
