import OfferAnswer.Ice.CandidateText
import OfferAnswer.Ident
import OfferAnswer.Mid
import OfferAnswer.Sdp.Attribute

/-!
# Sections

One `m=` section of a description. Port 0 means that the section is rejected, or switched off.
A rejected section keeps its place, its kind, its protocol and its identifier, so that answer and
offer still match section by section.
-/

namespace OfferAnswer

/-- A bandwidth line. -/
structure Bandwidth where
  /-- The type, such as `AS` or `TIAS`. -/
  type : String
  value : String
deriving DecidableEq, Repr

/-- A section of a description. -/
structure Section where
  /-- The kind of media. -/
  kind : MediaKind
  /-- The port; 0 when rejected. -/
  port : UInt16
  /-- The transport protocol. -/
  proto : String
  /-- The formats: payload types for RTP. -/
  formats : List String := []
  /-- The value of the connection line. -/
  connection : Option String := none
  /-- The bandwidth line. -/
  bandwidth : Option Bandwidth := none
  /-- The attributes, in order. -/
  attrs : List Attribute := []
deriving DecidableEq, Repr

namespace Section

/-! ## Reading attributes -/

def isRejected (m : Section) : Bool := m.port == 0

/-- The content of the first attribute with a key. -/
def attr? (m : Section) (key : String) : Option String := Attribute.lookup key m.attrs

/-- The attributes with a key, in order. -/
def attrsOf (m : Section) (key : String) : List Attribute := m.attrs.filter (·.key == key)

/-- Whether there is an attribute with a key. -/
def hasAttr (m : Section) (key : String) : Bool := Attribute.hasKey key m.attrs

/-- The identifier that the section declares. -/
def mid? (m : Section) : Option Mid := (m.attr? "mid").map Mid.ofText

/-- The direction; a section that declares none goes both ways. -/
def direction (m : Section) : Direction :=
  (m.attrs.findSome? Attribute.direction?).getD .sendRecv

/-- Whether RTCP shares the port of RTP. -/
def rtcpMux (m : Section) : Bool := m.hasAttr "rtcp-mux"

/-- The candidates of the section; a line that is no candidate is passed over. -/
def candidates (m : Section) : List Candidate :=
  (m.attrsOf "candidate").filterMap fun a ↦ Candidate.ofText? ("candidate:" ++ a.content)

/-- The elements of a list, each at its first place only. -/
def firstOnly {α : Type} [BEq α] (xs : List α) : List α :=
  xs.foldl (fun seen x ↦ if seen.contains x then seen else seen ++ [x]) []

/-- The sources that the section declares, each once, in order of first mention. -/
def ssrcs (m : Section) : List Ssrc :=
  firstOnly ((m.attrsOf "ssrc").filterMap fun a ↦
    Numeral.readUInt32 (Text.before ' ' a.content.toList))

/-! ## Changing attributes -/

/-- Adds an attribute by the rule of `Attribute.addOnce`. -/
def add (m : Section) (a : Attribute) : Section :=
  { m with attrs := Attribute.addOnce a m.attrs }

/-- Adds several attributes in order. -/
def addAll (m : Section) (as : List Attribute) : Section :=
  { m with attrs := Attribute.addAllOnce as m.attrs }

/-- Removes all attributes with a key. -/
def remove (m : Section) (key : String) : Section :=
  { m with attrs := m.attrs.filter (·.key != key) }

/-- Replaces every direction attribute by one. -/
def setDirection (m : Section) (d : Direction) : Section :=
  { m with attrs := m.attrs.filter (·.direction?.isNone) ++ [.flag d.key] }

/-! ## Rejection -/

/-- The rejection of an offered section: no port and no formats, in the same place. -/
def rejected (offered : Section) : Section where
  kind := offered.kind
  port := 0
  proto := offered.proto
  connection := offered.connection
  attrs := ((offered.attr? "mid").map (Attribute.of "mid")).toList

/-! ## Consistency -/

/-- The rule that a section breaks. -/
inductive Fault where
  /-- A section that is not rejected has no formats. -/
  | noFormats (kind : MediaKind)
  | noProtocol
deriving DecidableEq, Repr

def Fault.text : Fault → String
  | noFormats kind => kind.name ++ " m-line has no formats"
  | noProtocol => "m-line has no protocol"

/-- The first rule that the section breaks. -/
def fault? (m : Section) : Option Fault :=
  if !m.isRejected && m.formats.isEmpty then some (.noFormats m.kind)
  else if m.proto.isEmpty then some .noProtocol
  else none

end Section

end OfferAnswer
