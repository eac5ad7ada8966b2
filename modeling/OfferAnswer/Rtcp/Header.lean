import OfferAnswer.Ident

/-!
# RTCP headers

The four bytes that open every RTCP packet: version and padding bits, a count (for feedback: the
message type), the packet type, and the length in words, less one.
-/

namespace OfferAnswer

/-- A run of bytes. -/
abbrev Bytes := List UInt8

/-- The number that the first four bytes make, most significant first. -/
def Bytes.word (bs : Bytes) : UInt32 := (bs.take 4).foldl (fun acc b ↦ acc * 256 + b.toUInt32) 0

/-- The number that four bytes make from a position on. -/
def Bytes.wordAt (bs : Bytes) (i : Nat) : UInt32 := Bytes.word (bs.drop i)

/-- Why a buffer is no RTCP. -/
inductive RtcpError where
  /-- There is nothing in it. -/
  | empty
  | shortHeader
  /-- The version is not 2. -/
  | version
  /-- The packet type is outside the range of RTCP. -/
  | packetType
  /-- A packet reaches beyond the buffer. -/
  | beyondBuffer
  /-- A packet other than the last has padding. -/
  | earlyPadding
  /-- The padding is empty or longer than the body. -/
  | badPadding
  | shortSenderReport
  | shortApplication
  | shortExtendedReport
  | shortFeedback
  /-- A packet announces a source and has none. -/
  | missingSource
  | shortReceiverReport
  /-- A receiver report is shorter than its blocks. -/
  | missingBlocks
  | shortIntraRequest
  | shortEstimate
  /-- A bandwidth estimate lacks its mark. -/
  | missingMark
  /-- A bandwidth estimate is shorter than its list of sources. -/
  | missingSources
deriving DecidableEq, Repr

def RtcpError.text : RtcpError → String
  | empty => "Empty RTCP buffer"
  | shortHeader => "Less than 4 bytes for RTCP header"
  | version => "RTCP version is not 2"
  | packetType => "RTCP packet type outside 192-223"
  | beyondBuffer => "RTCP length beyond buffer"
  | earlyPadding => "RTCP padding before last packet"
  | badPadding => "RTCP bad padding"
  | shortSenderReport => "SR less than 24 bytes"
  | shortApplication => "APP less than 8 bytes"
  | shortExtendedReport => "XR less than 4 bytes"
  | shortFeedback => "Feedback less than 8 bytes"
  | missingSource => "Missing SSRC"
  | shortReceiverReport => "RR less than 4 bytes"
  | missingBlocks => "RR shorter than report count"
  | shortIntraRequest => "Fir less than 16 bytes"
  | shortEstimate => "Remb less than 16 bytes"
  | missingMark => "Missing REMB identifier"
  | missingSources => "Remb shorter than its SSRC list"

/-- The header of a packet. -/
structure RtcpHeader where
  /-- Whether the packet ends with padding. -/
  hasPadding : Bool
  /-- The count of reports or sources, or the type of a feedback message. -/
  count : UInt8
  packetType : UInt8
  /-- The length in words of four bytes, less one. -/
  words : UInt16
deriving DecidableEq, Repr

namespace RtcpHeader

def size : Nat := 4

/-- The length of the packet in bytes, header included. -/
def length (h : RtcpHeader) : Nat := (h.words.toNat + 1) * 4

theorem size_le_length (h : RtcpHeader) : size ≤ h.length := by
  simp only [size, length]; omega

/-- Whether a packet type is in the range of RTCP. -/
def isRtcpType (t : UInt8) : Bool := 192 ≤ t && t ≤ 223

/-- Reads a header from the front of a buffer. -/
def read : Bytes → Except RtcpError RtcpHeader
  | a :: b :: c :: d :: _ =>
    if a >>> 6 ≠ 2 then .error .version
    else if !isRtcpType b then .error .packetType
    else .ok {
      hasPadding := a &&& 0x20 != 0
      count := a &&& 0x1F
      packetType := b
      words := c.toUInt16 * 256 + d.toUInt16 }
  | _ => .error .shortHeader

end RtcpHeader

/-! ## Packet types -/

/-- The packet types that are understood. -/
inductive RtcpType where
  /-- SR. -/
  | senderReport
  /-- RR. -/
  | receiverReport
  /-- SDES. -/
  | sourceDescription
  /-- BYE. -/
  | goodbye
  /-- APP. -/
  | applicationDefined
  /-- RTPFB. -/
  | transportFeedback
  /-- PSFB. -/
  | payloadFeedback
  /-- XR. -/
  | extendedReport
deriving DecidableEq, Repr

namespace RtcpType

def number : RtcpType → UInt8
  | senderReport => 200
  | receiverReport => 201
  | sourceDescription => 202
  | goodbye => 203
  | applicationDefined => 204
  | transportFeedback => 205
  | payloadFeedback => 206
  | extendedReport => 207

def name : RtcpType → String
  | senderReport => "SenderReport"
  | receiverReport => "ReceiverReport"
  | sourceDescription => "SourceDescription"
  | goodbye => "Goodbye"
  | applicationDefined => "ApplicationDefined"
  | transportFeedback => "TransportLayerFeedback"
  | payloadFeedback => "PayloadSpecificFeedback"
  | extendedReport => "ExtendedReport"

/-- All packet types that are understood. -/
def all : List RtcpType :=
  [senderReport, receiverReport, sourceDescription, goodbye, applicationDefined,
    transportFeedback, payloadFeedback, extendedReport]

def ofNumber? (n : UInt8) : Option RtcpType := all.find? (·.number == n)

end RtcpType

/-- The payload-specific feedback messages. -/
inductive FeedbackType where
  /-- PLI. -/
  | pictureLoss
  /-- SLI. -/
  | sliceLoss
  /-- RPSI. -/
  | referencePicture
  /-- FIR. -/
  | fullIntraRequest
  /-- AFB, which carries bandwidth estimates. -/
  | applicationLayer
deriving DecidableEq, Repr

namespace FeedbackType

def number : FeedbackType → UInt8
  | pictureLoss => 1
  | sliceLoss => 2
  | referencePicture => 3
  | fullIntraRequest => 4
  | applicationLayer => 15

def name : FeedbackType → String
  | pictureLoss => "PictureLossIndication"
  | sliceLoss => "SliceLossIndication"
  | referencePicture => "ReferencePictureSelectionIndication"
  | fullIntraRequest => "FullIntraRequest"
  | applicationLayer => "ApplicationLayer"

/-- All payload-specific feedback messages. -/
def all : List FeedbackType :=
  [pictureLoss, sliceLoss, referencePicture, fullIntraRequest, applicationLayer]

def ofNumber? (n : UInt8) : Option FeedbackType := all.find? (·.number == n)

end FeedbackType

end OfferAnswer
