import OfferAnswer.Dtls.Fingerprint
import OfferAnswer.Dtls.Setup
import OfferAnswer.Sdp.Section

/-!
# Session descriptions

A description is a session part and its sections in order. ICE credentials, fingerprint and setup
of a section may be declared once for all sections in the session part; the section's own word
wins.
-/

namespace OfferAnswer

/-- What a description says before its first section. -/
structure SessionPart where
  /-- The session id of the origin line. -/
  id : SessionId
  /-- The version of the origin line. -/
  version : UInt64
  /-- The bandwidth line. -/
  bandwidth : Option Bandwidth := none
  /-- The attributes, in order. -/
  attrs : List Attribute := []
deriving DecidableEq, Repr

/-- A session description. -/
structure Description where
  /-- The part before the first section. -/
  session : SessionPart
  sections : List Section
deriving DecidableEq, Repr

namespace SessionPart

/-- The content of the first attribute with a key. -/
def attr? (s : SessionPart) (key : String) : Option String := Attribute.lookup key s.attrs

/-- Whether there is an attribute with a key. -/
def hasAttr (s : SessionPart) (key : String) : Bool := Attribute.hasKey key s.attrs

/-- Whether the writer is an ICE lite agent. -/
def iceLite (s : SessionPart) : Bool := s.hasAttr "ice-lite"

/-- The identifiers of a group value whose first word is `BUNDLE`. -/
def bundleOf? (value : String) : Option (List Mid) :=
  match Text.splitAt ' ' value.toList with
  | word :: names =>
    if word = "BUNDLE".toList then
      some ((names.filter (· ≠ [])).map fun w ↦ Mid.ofText (String.ofList w))
    else none
  | [] => none

/-- The identifiers of the first bundle group. -/
def bundle? (s : SessionPart) : Option (List Mid) :=
  s.attrs.findSome? fun a ↦ if a.key = "group" then a.value.bind bundleOf? else none

end SessionPart

namespace Description

/-- The content of an attribute of a section, or else of the session part. -/
def inherited? (d : Description) (i : Nat) (key : String) : Option String :=
  d.sections[i]?.bind fun m ↦ (m.attr? key).or (d.session.attr? key)

/-- The ICE credentials of a section. -/
def iceCredentials? (d : Description) (i : Nat) : Option IceCredentials :=
  (d.inherited? i "ice-ufrag").bind fun ufrag ↦
    (d.inherited? i "ice-pwd").map fun password ↦ ⟨ufrag, password⟩

/-- The certificate fingerprint of a section. -/
def fingerprint? (d : Description) (i : Nat) : Option Fingerprint :=
  (d.inherited? i "fingerprint").bind Fingerprint.ofText?

/-- The DTLS setup of a section. -/
def setup? (d : Description) (i : Nat) : Option Setup :=
  (d.inherited? i "setup").bind Setup.ofText?

/-- The identifier of a section: the declared one, or else the index. -/
def midOf? (d : Description) (i : Nat) : Option Mid :=
  d.sections[i]?.map fun m ↦ m.mid?.getD (Mid.ofIndex i)

/-- What is wrong with a description that could be read. -/
structure Inconsistency where
  /-- The index of the section. -/
  index : Nat
  /-- The rule it breaks. -/
  fault : Section.Fault
deriving DecidableEq, Repr

def Inconsistency.text (e : Inconsistency) : String :=
  "m-line " ++ Numeral.decimal e.index ++ ": " ++ e.fault.text

/-- The first inconsistency of sections that start at an index. -/
def inconsistencyFrom (i : Nat) : List Section → Option Inconsistency
  | [] => none
  | m :: ms =>
    match m.fault? with
    | some fault => some ⟨i, fault⟩
    | none => inconsistencyFrom (i + 1) ms

/-- The first inconsistency of a description. -/
def inconsistency? (d : Description) : Option Inconsistency := inconsistencyFrom 0 d.sections

end Description

end OfferAnswer
