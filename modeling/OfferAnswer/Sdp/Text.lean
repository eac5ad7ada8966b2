import OfferAnswer.Sdp.Description

/-!
# The text of a description

The written form. Every line ends with a carriage return and a line feed. The session part has a
fixed origin address, subject and time, since none of them means anything between the peers.
-/

namespace OfferAnswer

/-- The end of a written line. -/
def lineBreak : List Char := ['\r', '\n']

/-- The line of an attribute. -/
def Attribute.chars (a : Attribute) : List Char :=
  match a.value with
  | some v => "a=".toList ++ a.key.toList ++ [':'] ++ v.toList ++ lineBreak
  | none => "a=".toList ++ a.key.toList ++ lineBreak

/-- The line of a bandwidth. -/
def Bandwidth.chars (b : Bandwidth) : List Char :=
  "b=".toList ++ b.type.toList ++ [':'] ++ b.value.toList ++ lineBreak

/-- The line of a connection value. -/
def connectionChars (c : String) : List Char := "c=".toList ++ c.toList ++ lineBreak

/-- The `m=` line of a section. -/
def Section.mediaChars (m : Section) : List Char :=
  "m=".toList ++ m.kind.name.toList ++ [' '] ++ Numeral.decimalChars m.port.toNat ++ [' '] ++
    m.proto.toList ++ m.formats.flatMap (fun f ↦ ' ' :: f.toList) ++ lineBreak

/-- The lines of a section. -/
def Section.chars (m : Section) : List Char :=
  m.mediaChars ++ (m.connection.map connectionChars).getD [] ++
    (m.bandwidth.map Bandwidth.chars).getD [] ++ m.attrs.flatMap Attribute.chars

/-- The origin line. -/
def SessionPart.originChars (s : SessionPart) : List Char :=
  "o=- ".toList ++ Numeral.decimalChars s.id.toNat ++ [' '] ++
    Numeral.decimalChars s.version.toNat ++ " IN IP4 0.0.0.0".toList ++ lineBreak

/-- The lines of a session part. -/
def SessionPart.chars (s : SessionPart) : List Char :=
  "v=0".toList ++ lineBreak ++ s.originChars ++ "s=-".toList ++ lineBreak ++
    (s.bandwidth.map Bandwidth.chars).getD [] ++ "t=0 0".toList ++ lineBreak ++
    s.attrs.flatMap Attribute.chars

/-- The lines of a description. -/
def Description.chars (d : Description) : List Char :=
  d.session.chars ++ d.sections.flatMap Section.chars

def Section.text (m : Section) : String := String.ofList m.chars

def Description.text (d : Description) : String := String.ofList d.chars

end OfferAnswer
