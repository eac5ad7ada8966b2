import OfferAnswer.Rtcp.Header

/-!
# RTCP packets

A packet reduced to the sources it speaks of. A buffer holds one packet or several that tile it
exactly; only the last may be padded, and reduced-size buffers that start with feedback are taken
as they are.

A packet of a type in the range of RTCP that is not understood is kept as such: it is valid, and
it speaks of no source.
-/

namespace OfferAnswer

/-! ## Bodies -/

/-- A receiver report: who reports, and on which sources. -/
structure ReceiverReport where
  /-- The source of the reporting side. -/
  sender : Ssrc
  /-- The source of every report block, in order. -/
  blocks : List Ssrc
deriving DecidableEq, Repr

/-- A request for a full picture. -/
structure IntraRequest where
  /-- The source of the requesting side. -/
  sender : Ssrc
  /-- The source that is asked. -/
  ssrc : Ssrc
  /-- The sequence number of the request. -/
  number : UInt8
deriving DecidableEq, Repr

/-- A receiver's estimate of the bandwidth. -/
structure BandwidthEstimate where
  /-- The source of the estimating side. -/
  sender : Ssrc
  /-- Bits per second. -/
  bitrate : UInt64
  /-- The sources it applies to. -/
  ssrcs : List Ssrc
deriving DecidableEq, Repr

namespace ReceiverReport

/-- The size of a report block. -/
def blockSize : Nat := 24

/-- The source of the first block. -/
def first? (r : ReceiverReport) : Option Ssrc := r.blocks.head?

/-- Reads the body of a report with a number of blocks. -/
def read (count : Nat) (body : Bytes) : Except RtcpError ReceiverReport :=
  if body.length < 4 then .error .shortReceiverReport
  else if body.length < 4 + count * blockSize then .error .missingBlocks
  else .ok {
    sender := Bytes.wordAt body 0
    blocks := (List.range count).map fun i ↦ Bytes.wordAt body (4 + i * blockSize) }

end ReceiverReport

/-- Reads the body of an intra request; of several entries the first counts. -/
def IntraRequest.read (body : Bytes) : Except RtcpError IntraRequest :=
  if body.length < 16 then .error .shortIntraRequest
  else .ok {
    sender := Bytes.wordAt body 0
    ssrc := Bytes.wordAt body 8
    number := body.getD 12 0 }

namespace BandwidthEstimate

/-- The four letters that mark an estimate. -/
def mark : Bytes := [0x52, 0x45, 0x4D, 0x42]

/-- Whether the body of an application feedback carries the mark. -/
def isMarked (body : Bytes) : Bool := 12 ≤ body.length && (body.drop 8).take 4 == mark

/-- The bit rate of an exponent of 6 bits and a mantissa of 18. The bits that a shift moves out
of 64 are lost. -/
def rate (exponent mantissa : UInt64) : UInt64 := mantissa <<< exponent

/-- Reads the body of an estimate. -/
def read (body : Bytes) : Except RtcpError BandwidthEstimate :=
  if body.length < 16 then .error .shortEstimate
  else if !isMarked body then .error .missingMark
  else
    let count := (body.getD 12 0).toNat
    if body.length < 16 + count * 4 then .error .missingSources
    else
      let scale := body.getD 13 0
      let mantissa := (scale &&& 3).toUInt64 * 65536 + (body.getD 14 0).toUInt64 * 256 +
        (body.getD 15 0).toUInt64
      .ok {
        sender := Bytes.wordAt body 0
        bitrate := rate (scale >>> 2).toUInt64 mantissa
        ssrcs := (List.range count).map fun i ↦ Bytes.wordAt body (16 + i * 4) }

end BandwidthEstimate

/-! ## Packets -/

/-- A packet, reduced to the sources it speaks of. -/
inductive RtcpPacket where
  | senderReport (sender : Ssrc)
  | receiverReport (report : ReceiverReport)
  /-- A source description, with its first source. -/
  | sourceDescription (sender : Option Ssrc)
  /-- A goodbye, with the first source that leaves. -/
  | goodbye (sender : Option Ssrc)
  | applicationDefined (sender : Ssrc)
  | extendedReport (sender : Ssrc)
  /-- A request for a full picture. -/
  | intraRequest (request : IntraRequest)
  | estimate (estimate : BandwidthEstimate)
  /-- Any other feedback. -/
  | feedback (packetType message : UInt8) (sender media : Ssrc)
  /-- A packet of a type that is not understood. -/
  | unknown (packetType : UInt8)
deriving DecidableEq, Repr

namespace RtcpPacket

/-- Reads a feedback body: who sends it, and on which source. -/
def readFeedback (h : RtcpHeader) (body : Bytes) : Except RtcpError RtcpPacket :=
  if body.length < 8 then .error .shortFeedback
  else .ok (.feedback h.packetType h.count (Bytes.wordAt body 0) (Bytes.wordAt body 4))

/-- The first source of a body that lists a number of them. -/
def readFirst (count : UInt8) (body : Bytes) : Except RtcpError (Option Ssrc) :=
  if count = 0 then .ok none
  else if body.length < 4 then .error .missingSource
  else .ok (some (Bytes.wordAt body 0))

/-- The first source of a body, which must have a given size at least. -/
def readSender (size : Nat) (short : RtcpError) (body : Bytes) : Except RtcpError Ssrc :=
  if body.length < size then .error short else .ok (Bytes.wordAt body 0)

/-- Reads a body by the type in the header. -/
def readBody (h : RtcpHeader) (body : Bytes) : Except RtcpError RtcpPacket :=
  match RtcpType.ofNumber? h.packetType with
  | none => .ok (.unknown h.packetType)
  | some .senderReport => (readSender 24 .shortSenderReport body).map .senderReport
  | some .receiverReport => (ReceiverReport.read h.count.toNat body).map .receiverReport
  | some .sourceDescription => (readFirst h.count body).map .sourceDescription
  | some .goodbye => (readFirst h.count body).map .goodbye
  | some .applicationDefined => (readSender 8 .shortApplication body).map .applicationDefined
  | some .extendedReport => (readSender 4 .shortExtendedReport body).map .extendedReport
  | some .transportFeedback => readFeedback h body
  | some .payloadFeedback =>
    match FeedbackType.ofNumber? h.count with
    | some .fullIntraRequest => (IntraRequest.read body).map .intraRequest
    | some .applicationLayer =>
      if BandwidthEstimate.isMarked body then (BandwidthEstimate.read body).map .estimate
      else readFeedback h body
    | _ => readFeedback h body

/-- The length of a body, header and padding taken off. The padding counts itself in its last
byte, and only the last packet of a buffer may have any. -/
def bodyLength (h : RtcpHeader) (bs : Bytes) : Except RtcpError Nat :=
  if !h.hasPadding then .ok (h.length - RtcpHeader.size)
  else if h.length ≠ bs.length then .error .earlyPadding
  else
    let padding := (bs.getD (h.length - 1) 0).toNat
    if padding = 0 ∨ h.length - RtcpHeader.size < padding then .error .badPadding
    else .ok (h.length - RtcpHeader.size - padding)

/-- Reads the packet at the front of a buffer. -/
def readFront (bs : Bytes) : Except RtcpError (RtcpPacket × RtcpHeader) := do
  let h ← RtcpHeader.read bs
  if bs.length < h.length then .error .beyondBuffer
  let n ← bodyLength h bs
  let p ← readBody h ((bs.drop RtcpHeader.size).take n)
  return (p, h)

/-- Reads packets up to the end of a buffer. -/
def readRest (bs : Bytes) : Except RtcpError (List RtcpPacket) :=
  if _ : bs = [] then .ok []
  else
    match readFront bs with
    | .error e => .error e
    | .ok (p, header) =>
      match readRest (bs.drop header.length) with
      | .error e => .error e
      | .ok ps => .ok (p :: ps)
termination_by bs.length
decreasing_by
  have := List.length_pos_iff.2 ‹¬bs = []›
  have := RtcpHeader.size_le_length header
  simp only [RtcpHeader.size] at this
  simp only [List.length_drop]
  omega

/-- Reads a whole buffer. -/
def readCompound (bs : Bytes) : Except RtcpError (List RtcpPacket) :=
  if bs = [] then .error .empty else readRest bs

end RtcpPacket

end OfferAnswer
