import OfferAnswer.Ident
import OfferAnswer.Sdp.Section

/-!
# Codecs

A codec as it is configured and as it is negotiated: a payload type, and what the section says
about it. Two sides mean the same codec when name and clock rate agree, the case of letters in the
name aside; the payload type is the offerer's choice.

A few payload types have a fixed meaning, and a format of theirs needs no `rtpmap` line.
-/

namespace OfferAnswer

/-- A codec and its payload type. -/
structure Codec where
  /-- The payload type. -/
  pt : PayloadType
  /-- The encoding name. -/
  name : String
  /-- The clock rate in hertz. -/
  clockRate : UInt32
  /-- The number of audio channels. -/
  channels : Option UInt8 := none
  /-- The format parameters. -/
  fmtp : Option String := none
  /-- The kinds of RTCP feedback. -/
  feedback : List String := []
deriving DecidableEq, Repr

namespace Codec

/-- The payload type as a format. -/
def format (c : Codec) : String := Numeral.decimal c.pt.toNat

/-- The value of the `rtpmap` line. -/
def rtpmap (c : Codec) : String :=
  c.format ++ " " ++ c.name ++ "/" ++ Numeral.decimal c.clockRate.toNat ++
    (match c.channels with
    | some n => "/" ++ Numeral.decimal n.toNat
    | none => "")

/-- The name of a codec for people. -/
def text (c : Codec) : String :=
  c.name ++ "/" ++ Numeral.decimal c.clockRate.toNat ++ " (" ++ c.format ++ ")"

/-- Whether a declared name and clock rate mean the codec. -/
def isNamed (c : Codec) (name : String) (clockRate : UInt32) : Bool :=
  Text.sameIgnoringCase c.name name && c.clockRate == clockRate

/-- The default audio codecs: Opus and both companding laws. -/
def defaultAudio : List Codec :=
  [{ pt := 111, name := "opus", clockRate := 48000, channels := some 2,
     fmtp := some "minptime=10;useinbandfec=1" },
   { pt := 0, name := "PCMU", clockRate := 8000 },
   { pt := 8, name := "PCMA", clockRate := 8000 }]

/-- The feedback that the default video codecs take. -/
def videoFeedback : List String := ["nack", "nack pli", "ccm fir", "goog-remb"]

/-- The default video codecs: VP8 and H.264. -/
def defaultVideo : List Codec :=
  [{ pt := 96, name := "VP8", clockRate := 90000, feedback := videoFeedback },
   { pt := 102, name := "H264", clockRate := 90000, feedback := videoFeedback,
     fmtp := some
      "level-asymmetry-allowed=1;packetization-mode=1;profile-level-id=42e01f" }]

end Codec

/-- What a section declares a format to be. -/
structure RtpMap where
  /-- The encoding name. -/
  name : String
  /-- The clock rate in hertz. -/
  clockRate : UInt32
  /-- The number of audio channels. -/
  channels : Option UInt8 := none
deriving DecidableEq, Repr

namespace RtpMap

/-- The meaning of an encoding such as `opus/48000/2`. -/
def ofEncoding? (s : String) : Option RtpMap :=
  match Text.splitAt '/' s.toList with
  | name :: rate :: rest =>
    (Numeral.readUInt32 rate).map fun rate ↦
      ⟨String.ofList name, rate, rest.head?.bind Numeral.readUInt8⟩
  | _ => none

/-- The formats whose meaning is fixed. -/
def fixed : List (String × RtpMap) :=
  [("0", ⟨"PCMU", 8000, none⟩), ("3", ⟨"GSM", 8000, none⟩), ("8", ⟨"PCMA", 8000, none⟩),
    ("9", ⟨"G722", 8000, none⟩), ("18", ⟨"G729", 8000, none⟩), ("26", ⟨"JPEG", 90000, none⟩),
    ("34", ⟨"H263", 90000, none⟩)]

end RtpMap

namespace Section

/-- The first attribute with a key whose value starts with the word of a format. -/
def attrFor? (m : Section) (key format : String) : Option Attribute :=
  (m.attrsOf key).find? fun a ↦ Text.firstWord a.content == format

/-- What the section declares a format to be. A line of its own wins over the fixed meaning,
even when it cannot be read. -/
def rtpmap? (m : Section) (format : String) : Option RtpMap :=
  match m.attrFor? "rtpmap" format with
  | some a => RtpMap.ofEncoding? (Text.afterFirstWord a.content)
  | none => RtpMap.fixed.lookup format

end Section

end OfferAnswer
