import Mathlib.Algebra.Group.Nat.Defs
import OfferAnswer.Rtcp.Packet

/-!
# The format of a compound buffer

A buffer that is read as packets is a row of chunks, one for each packet. A `Chunk` is a header and
what its length field says follows it; `Chunk.WellFormed` has the rules it must keep and
`Chunk.packet` what it says. Reading accepts the rows of well-formed chunks in which the last chunk
alone may be padded, and gives the packets of the chunks in order.

Reading knows one buffer, not chunks, and finds the last packet by its length. The two views meet in
`readFront_eq_ok_iff`: what is read from the front of a buffer is a chunk and what follows it, and a
padded chunk is followed by nothing.
-/

namespace OfferAnswer

/-! ## Numbers in bytes -/

namespace Bytes

/-- The number that four bytes from a position on make, most significant first. -/
def bigEndian (bs : Bytes) (i : Nat) : UInt32 :=
  UInt32.ofNat ((((bs.getD i 0).toNat * 256 + (bs.getD (i + 1) 0).toNat) * 256 +
    (bs.getD (i + 2) 0).toNat) * 256 + (bs.getD (i + 3) 0).toNat)

theorem word_eq (a b c d : UInt8) (bs : Bytes) : word (a :: b :: c :: d :: bs) =
    UInt32.ofNat (((a.toNat * 256 + b.toNat) * 256 + c.toNat) * 256 + d.toNat) := by
  simp [word]

theorem drop_eq {bs : Bytes} {i : Nat} (h : i + 4 ≤ bs.length) : bs.drop i =
    bs.getD i 0 :: bs.getD (i + 1) 0 :: bs.getD (i + 2) 0 :: bs.getD (i + 3) 0 ::
      bs.drop (i + 4) := by
  have hget (j : Nat) (hj : j < bs.length) : bs.getD j 0 = bs[j] := by
    rw [List.getD_eq_getElem?_getD, List.getElem?_eq_getElem hj, Option.getD_some]
  rw [hget i (by omega), hget (i + 1) (by omega), hget (i + 2) (by omega), hget (i + 3) (by omega),
    List.getElem_cons_drop, List.getElem_cons_drop, List.getElem_cons_drop, List.getElem_cons_drop]

theorem wordAt_eq {bs : Bytes} {i : Nat} (h : i + 4 ≤ bs.length) :
    bs.wordAt i = bs.bigEndian i := by
  rw [wordAt, drop_eq h, word_eq, bigEndian]

end Bytes

/-! ## Bodies -/

/-- Whether a reading gives a value under a condition, and fails without it. -/
def Needs {α : Type} (fits : Prop) (r : Except RtcpError α) (a : α) : Prop :=
  (fits → r = .ok a) ∧ (¬fits → ∃ e, r = .error e)

namespace Needs

variable {α β : Type} {fits : Prop} {r : Except RtcpError α} {a b : α}

theorem ok_iff (h : Needs fits r a) : r = .ok b ↔ fits ∧ b = a := by
  by_cases hfits : fits
  · rw [h.1 hfits, Except.ok.injEq, and_iff_right hfits, eq_comm]
  · obtain ⟨e, he⟩ := h.2 hfits
    simp [he, hfits]

theorem map (h : Needs fits r a) (f : α → β) : Needs fits (r.map f) (f a) := by
  refine ⟨fun hfits ↦ by rw [h.1 hfits]; rfl, fun hfits ↦ ?_⟩
  obtain ⟨e, he⟩ := h.2 hfits
  exact ⟨e, by rw [he]; rfl⟩

theorem bind {fits' : Prop} {f : α → Except RtcpError β} {y : β} (h : Needs fits r a)
    (h' : fits → Needs fits' (f a) y) : Needs (fits ∧ fits') (r.bind f) y := by
  by_cases hfits : fits
  · rw [h.1 hfits, and_iff_right hfits]
    exact h' hfits
  · obtain ⟨e, he⟩ := h.2 hfits
    rw [he]
    exact ⟨fun hboth ↦ absurd hboth.1 hfits, fun _ ↦ ⟨e, rfl⟩⟩

theorem of_guard {n len : Nat} {e : RtcpError} (h : n ≤ len → r = .ok a) :
    Needs (n ≤ len) (if len < n then .error e else r) a := by
  by_cases hlen : len < n
  · rw [if_pos hlen]
    exact ⟨fun hle ↦ absurd hlen (Nat.not_lt.mpr hle), fun _ ↦ ⟨e, rfl⟩⟩
  · rw [if_neg hlen]
    exact ⟨h, fun hle ↦ absurd (Nat.not_lt.mp hlen) hle⟩

end Needs

/-! ## Readers of bodies -/

section Bodies

variable (body : Bytes)

theorem needs_readSender (size : Nat) (h : 4 ≤ size) (short : RtcpError) :
    Needs (size ≤ body.length) (RtcpPacket.readSender size short body) (body.bigEndian 0) :=
  Needs.of_guard fun hlen ↦ by rw [Bytes.wordAt_eq (by omega)]

theorem needs_readFeedback (h : RtcpHeader) :
    Needs (8 ≤ body.length) (RtcpPacket.readFeedback h body)
      (.feedback h.packetType h.count (body.bigEndian 0) (body.bigEndian 4)) :=
  Needs.of_guard fun hlen ↦ by rw [Bytes.wordAt_eq (by omega), Bytes.wordAt_eq (by omega)]

theorem needs_readFirst (count : UInt8) :
    Needs ((if count = 0 then 0 else 4) ≤ body.length) (RtcpPacket.readFirst count body)
      (if count = 0 then none else some (body.bigEndian 0)) := by
  rw [RtcpPacket.readFirst]
  by_cases hcount : count = 0
  · simp [hcount, Needs]
  · simp only [if_neg hcount]
    exact Needs.of_guard fun hlen ↦ by rw [Bytes.wordAt_eq (by omega)]

theorem needs_receiverReport (count : Nat) : Needs (4 + 24 * count ≤ body.length)
    (ReceiverReport.read count body)
    ⟨body.bigEndian 0, (List.range count).map fun i ↦ body.bigEndian (4 + 24 * i)⟩ := by
  rw [ReceiverReport.read, ReceiverReport.blockSize, Nat.mul_comm count 24]
  by_cases hshort : body.length < 4
  · rw [if_pos hshort]
    exact ⟨fun hlen ↦ by omega, fun _ ↦ ⟨_, rfl⟩⟩
  · rw [if_neg hshort]
    refine Needs.of_guard fun hlen ↦ ?_
    rw [Bytes.wordAt_eq (by omega), Except.ok.injEq, ReceiverReport.mk.injEq]
    refine ⟨rfl, List.map_congr_left fun i hi ↦ ?_⟩
    have hi := List.mem_range.mp hi
    rw [Bytes.wordAt_eq (by omega), Nat.mul_comm]

theorem needs_intraRequest : Needs (16 ≤ body.length) (IntraRequest.read body)
    ⟨body.bigEndian 0, body.bigEndian 8, body.getD 12 0⟩ :=
  Needs.of_guard fun hlen ↦ by rw [Bytes.wordAt_eq (by omega), Bytes.wordAt_eq (by omega)]

theorem rate_eq (scale middle low : UInt8) :
    BandwidthEstimate.rate (scale >>> 2).toUInt64
      ((scale &&& 3).toUInt64 * 65536 + middle.toUInt64 * 256 + low.toUInt64) =
    UInt64.ofNat ((scale.toNat % 4 * 65536 + middle.toNat * 256 + low.toNat) *
      2 ^ (scale.toNat / 4)) := by
  have hscale := scale.toNat_lt
  have hmiddle := middle.toNat_lt
  have hlow := low.toNat_lt
  have hand : scale.toNat &&& 3 = scale.toNat % 4 := Nat.and_two_pow_sub_one_eq_mod _ 2
  have hexponent : scale.toNat / 4 % 64 = scale.toNat / 4 := by omega
  apply UInt64.toNat_inj.mp
  simp [BandwidthEstimate.rate, hand, hexponent, Nat.shiftRight_eq_div_pow, Nat.shiftLeft_eq]

/-- What the body of a bandwidth estimate says. The rate has a mantissa of 18 bits and an exponent
of six, and is kept in 64 bits. -/
def BandwidthEstimate.ofBody : BandwidthEstimate where
  sender := body.bigEndian 0
  bitrate := UInt64.ofNat (((body.getD 13 0).toNat % 4 * 65536 + (body.getD 14 0).toNat * 256 +
    (body.getD 15 0).toNat) * 2 ^ ((body.getD 13 0).toNat / 4))
  ssrcs := (List.range (body.getD 12 0).toNat).map fun i ↦ body.bigEndian (16 + 4 * i)

theorem needs_estimate (hmark : BandwidthEstimate.isMarked body = true) :
    Needs (16 + 4 * (body.getD 12 0).toNat ≤ body.length) (BandwidthEstimate.read body)
      (BandwidthEstimate.ofBody body) := by
  rw [BandwidthEstimate.read, hmark, Nat.mul_comm 4]
  by_cases hshort : body.length < 16
  · rw [if_pos hshort]
    exact ⟨fun hlen ↦ by omega, fun _ ↦ ⟨_, rfl⟩⟩
  · rw [if_neg hshort]
    refine Needs.of_guard fun hlen ↦ ?_
    rw [rate_eq, Bytes.wordAt_eq (by omega), Except.ok.injEq, BandwidthEstimate.ofBody,
      BandwidthEstimate.mk.injEq]
    refine ⟨rfl, rfl, List.map_congr_left fun i hi ↦ ?_⟩
    have hi := List.mem_range.mp hi
    rw [Bytes.wordAt_eq (by omega), Nat.mul_comm]

end Bodies

/-! ## Chunks -/

/-- A packet as it lies in a buffer: the four bytes of its header, and the bytes after them. -/
structure Chunk where
  /-- The byte of version, padding bit and count. -/
  first : UInt8
  /-- The packet type. -/
  type : UInt8
  /-- The high byte of the length field. -/
  high : UInt8
  /-- The low byte of the length field. -/
  low : UInt8
  /-- The bytes after the header. -/
  rest : Bytes

namespace Chunk

/-- The bytes of a chunk. -/
def bytes (c : Chunk) : Bytes := c.first :: c.type :: c.high :: c.low :: c.rest

/-- The two bits of the version. -/
def version (c : Chunk) : UInt8 := c.first / 64

/-- The padding bit. -/
def isPadded (c : Chunk) : Bool := c.first / 32 % 2 == 1

/-- The five bits of the count. -/
def count (c : Chunk) : UInt8 := c.first % 32

/-- The length field: the number of words of four bytes, less one. -/
def words (c : Chunk) : Nat := c.high.toNat * 256 + c.low.toNat

/-- The number of bytes of padding, which the last byte of a padded chunk says. -/
def padding (c : Chunk) : Nat := if c.isPadded then (c.bytes.getLast?.getD 0).toNat else 0

/-- What is left without header and padding. -/
def body (c : Chunk) : Bytes := c.rest.take (c.rest.length - c.padding)

/-- The bytes that the body must have at least. -/
def minimum (c : Chunk) : Nat :=
  match RtcpType.ofNumber? c.type with
  | some .senderReport => 24
  | some .receiverReport => 4 + 24 * c.count.toNat
  | some .sourceDescription | some .goodbye => if c.count = 0 then 0 else 4
  | some .applicationDefined => 8
  | some .extendedReport => 4
  | some .transportFeedback => 8
  | some .payloadFeedback =>
    match FeedbackType.ofNumber? c.count with
    | some .fullIntraRequest => 16
    | some .applicationLayer =>
      if BandwidthEstimate.isMarked c.body then 16 + 4 * (c.body.getD 12 0).toNat else 8
    | _ => 8
  | none => 0

/-- What a feedback message says that is not understood further. -/
def feedback (c : Chunk) : RtcpPacket :=
  .feedback c.type c.count (c.body.bigEndian 0) (c.body.bigEndian 4)

/-- The first of the sources that the count announces. -/
def firstSource (c : Chunk) : Option Ssrc := if c.count = 0 then none else some (c.body.bigEndian 0)

/-- What a chunk says. -/
def packet (c : Chunk) : RtcpPacket :=
  match RtcpType.ofNumber? c.type with
  | some .senderReport => .senderReport (c.body.bigEndian 0)
  | some .receiverReport =>
    .receiverReport ⟨c.body.bigEndian 0,
      (List.range c.count.toNat).map fun i ↦ c.body.bigEndian (4 + 24 * i)⟩
  | some .sourceDescription => .sourceDescription c.firstSource
  | some .goodbye => .goodbye c.firstSource
  | some .applicationDefined => .applicationDefined (c.body.bigEndian 0)
  | some .extendedReport => .extendedReport (c.body.bigEndian 0)
  | some .transportFeedback => c.feedback
  | some .payloadFeedback =>
    match FeedbackType.ofNumber? c.count with
    | some .fullIntraRequest =>
      .intraRequest ⟨c.body.bigEndian 0, c.body.bigEndian 8, c.body.getD 12 0⟩
    | some .applicationLayer =>
      if BandwidthEstimate.isMarked c.body then .estimate (.ofBody c.body) else c.feedback
    | _ => c.feedback
  | none => .unknown c.type

/-- The rules of a chunk. -/
structure WellFormed (c : Chunk) : Prop where
  /-- The version is 2. -/
  version : c.version = 2
  /-- The packet type is one of RTCP. -/
  type : 192 ≤ c.type ∧ c.type ≤ 223
  /-- The length field gives the size. -/
  size : c.bytes.length = 4 * (c.words + 1)
  /-- Padding is not empty, and leaves the header. -/
  padding : c.isPadded = true → 1 ≤ c.padding ∧ c.padding ≤ c.bytes.length - 4
  /-- The body has what its type must have. -/
  body : c.minimum ≤ c.body.length

def header (c : Chunk) : RtcpHeader :=
  ⟨c.isPadded, c.count, c.type, c.high.toUInt16 * 256 + c.low.toUInt16⟩

variable {c : Chunk}

theorem bits_eq (a : UInt8) :
    a >>> 6 = a / 64 ∧ (a &&& 0x20 != 0) = (a / 32 % 2 == 1) ∧ a &&& 0x1F = a % 32 := by
  have htable : ∀ n : Fin 256, (UInt8.ofNat n) >>> 6 = UInt8.ofNat n / 64 ∧
      (UInt8.ofNat n &&& 0x20 != 0) = (UInt8.ofNat n / 32 % 2 == 1) ∧
        UInt8.ofNat n &&& 0x1F = UInt8.ofNat n % 32 := by
    decide +kernel
  simpa using htable ⟨a.toNat, a.toNat_lt⟩

theorem length_header (c : Chunk) : c.header.length = 4 * (c.words + 1) := by
  have hhigh := c.high.toNat_lt
  have hlow := c.low.toNat_lt
  simp [RtcpHeader.length, header, words]
  omega

/-! ## Reading the front -/

theorem needs_readBody (c : Chunk) :
    Needs (c.minimum ≤ c.body.length) (RtcpPacket.readBody c.header c.body) c.packet := by
  rw [RtcpPacket.readBody, minimum, packet, header]
  cases RtcpType.ofNumber? c.type with
  | none => exact ⟨fun _ ↦ rfl, fun h ↦ absurd (Nat.zero_le _) h⟩
  | some type =>
    cases type with
    | senderReport => exact (needs_readSender c.body 24 (by decide) _).map _
    | receiverReport => exact (needs_receiverReport c.body c.count.toNat).map _
    | sourceDescription => exact (needs_readFirst c.body c.count).map _
    | goodbye => exact (needs_readFirst c.body c.count).map _
    | applicationDefined => exact (needs_readSender c.body 8 (by decide) _).map _
    | extendedReport => exact (needs_readSender c.body 4 (by decide) _).map _
    | transportFeedback => exact needs_readFeedback c.body c.header
    | payloadFeedback =>
      cases FeedbackType.ofNumber? c.count with
      | none => exact needs_readFeedback c.body c.header
      | some message =>
        cases message with
        | fullIntraRequest => exact (needs_intraRequest c.body).map _
        | applicationLayer =>
          by_cases hmark : BandwidthEstimate.isMarked c.body = true
          · simp only [hmark, if_true]
            exact (needs_estimate c.body hmark).map _
          · simp only [hmark]
            exact needs_readFeedback c.body c.header
        | pictureLoss | sliceLoss | referencePicture => exact needs_readFeedback c.body c.header

theorem read_bytes (hversion : c.version = 2) (htype : 192 ≤ c.type ∧ c.type ≤ 223)
    (tail : Bytes) : RtcpHeader.read (c.bytes ++ tail) = .ok c.header := by
  obtain ⟨hshift, hpadding, hcount⟩ := bits_eq c.first
  have hrange : RtcpHeader.isRtcpType c.type = true := by simp [RtcpHeader.isRtcpType, htype]
  rw [version] at hversion
  simp [bytes, RtcpHeader.read, hshift, hpadding, hcount, hrange, hversion, header, isPadded, count]

theorem length_bytes (c : Chunk) : c.bytes.length = c.rest.length + 4 := rfl

/-- A padded chunk must end its buffer. -/
theorem needs_bodyLength (hsize : c.bytes.length = 4 * (c.words + 1)) (tail : Bytes) :
    Needs (c.isPadded = true → tail = [] ∧ 1 ≤ c.padding ∧ c.padding ≤ c.bytes.length - 4)
      (RtcpPacket.bodyLength c.header (c.bytes ++ tail)) (c.rest.length - c.padding) := by
  have hlen : c.header.length = c.bytes.length := by rw [length_header, hsize]
  rw [RtcpPacket.bodyLength, hlen, RtcpHeader.size]
  by_cases hpadded : c.isPadded = true
  · have hheader : c.header.hasPadding = true := hpadded
    rw [hheader]
    cases tail with
    | cons b tail =>
      have hlength : c.bytes.length ≠ (c.bytes ++ b :: tail).length := by simp
      refine ⟨fun h ↦ absurd (h hpadded).1 (List.cons_ne_nil b tail), fun _ ↦ ⟨.earlyPadding, ?_⟩⟩
      rw [if_pos hlength]
      rfl
    | nil =>
      have hlast : (c.bytes.getD (c.bytes.length - 1) 0).toNat = c.padding := by
        rw [padding, if_pos hpadded, List.getLast?_eq_getElem?, List.getD_eq_getElem?_getD]
      rw [List.append_nil, hlast]
      by_cases hbad : c.padding = 0 ∨ c.bytes.length - 4 < c.padding
      · refine ⟨fun h ↦ ?_, fun _ ↦ ⟨.badPadding, by simp [hbad]⟩⟩
        have := (h hpadded).2
        omega
      · refine ⟨fun _ ↦ ?_, fun h ↦ absurd (fun _ ↦ ⟨rfl, by omega⟩) h⟩
        simp only [Bool.not_true, Bool.false_eq_true, if_false, ne_eq, not_true, if_neg hbad]
        rw [length_bytes, Nat.add_sub_cancel]
  · have hheader : c.header.hasPadding = false := Bool.not_eq_true _ ▸ hpadded
    rw [hheader, padding, if_neg hpadded, length_bytes]
    exact ⟨fun _ ↦ rfl, fun h ↦ absurd (fun h' ↦ absurd h' hpadded) h⟩

/-- What is read as a header are the first four bytes of a chunk. -/
theorem exists_of_read {bs : Bytes} {h : RtcpHeader} (hread : RtcpHeader.read bs = .ok h)
    (hlen : h.length ≤ bs.length) : ∃ (c : Chunk) (tail : Bytes), bs = c.bytes ++ tail ∧
      h = c.header ∧ c.version = 2 ∧ (192 ≤ c.type ∧ c.type ≤ 223) ∧
        c.bytes.length = 4 * (c.words + 1) := by
  rw [RtcpHeader.read.eq_def] at hread
  split at hread
  · rename_i a b x y more
    split at hread
    · cases hread
    · rename_i hversion
      split at hread
      · cases hread
      · rename_i htype
        cases hread
        obtain ⟨hshift, hpadding, hcount⟩ := bits_eq a
        -- the chunk ends where the length field says
        let c : Chunk := ⟨a, b, x, y, more.take (4 * (x.toNat * 256 + y.toNat))⟩
        have hheader : c.header.length = 4 * (c.words + 1) := length_header c
        refine ⟨c, more.drop (4 * (x.toNat * 256 + y.toNat)), ?_, ?_, ?_, ?_, ?_⟩
        · simp [c, bytes]
        · simp [c, header, isPadded, count, hpadding, hcount]
        · simpa [c, version, hshift] using hversion
        · simpa [c, RtcpHeader.isRtcpType] using htype
        · have hroom : c.header.length ≤ more.length + 4 := hlen
          rw [hheader] at hroom
          simp only [c, words, length_bytes, List.length_take] at hroom ⊢
          omega
  · cases hread

theorem readFront_eq (bs : Bytes) : RtcpPacket.readFront bs = (RtcpHeader.read bs).bind fun h ↦
    if bs.length < h.length then .error .beyondBuffer
    else (RtcpPacket.bodyLength h bs).bind fun n ↦
      (RtcpPacket.readBody h ((bs.drop RtcpHeader.size).take n)).map fun p ↦ (p, h) := by
  rw [RtcpPacket.readFront]
  refine congrArg _ (funext fun h ↦ ?_)
  by_cases hshort : bs.length < h.length
  · exact (if_pos hshort).trans (if_pos hshort).symm
  · refine (if_neg hshort).trans (Eq.trans ?_ (if_neg hshort).symm)
    refine congrArg _ (funext fun n ↦ ?_)
    cases RtcpPacket.readBody h ((bs.drop RtcpHeader.size).take n) <;> rfl

theorem readFront_of_read {bs : Bytes} {h : RtcpHeader} (hread : RtcpHeader.read bs = .ok h) :
    RtcpPacket.readFront bs = if bs.length < h.length then .error .beyondBuffer
      else (RtcpPacket.bodyLength h bs).bind fun n ↦
        (RtcpPacket.readBody h ((bs.drop RtcpHeader.size).take n)).map fun p ↦ (p, h) := by
  rw [readFront_eq, hread]
  rfl

/-- The packet at the front of a buffer is read if its chunk has what it must have, and ends the
buffer in case it is padded. -/
theorem needs_readFront (hversion : c.version = 2) (htype : 192 ≤ c.type ∧ c.type ≤ 223)
    (hsize : c.bytes.length = 4 * (c.words + 1)) (tail : Bytes) :
    Needs ((c.isPadded = true → tail = [] ∧ 1 ≤ c.padding ∧ c.padding ≤ c.bytes.length - 4) ∧
        c.minimum ≤ c.body.length)
      (RtcpPacket.readFront (c.bytes ++ tail)) (c.packet, c.header) := by
  have hbody : ((c.bytes ++ tail).drop RtcpHeader.size).take (c.rest.length - c.padding) =
      c.body := by
    change (c.rest ++ tail).take (c.rest.length - c.padding) = c.body
    rw [List.take_append_of_le_length (Nat.sub_le _ _), body]
  have hroom : ¬(c.bytes ++ tail).length < c.header.length := by
    rw [length_header, ← hsize, List.length_append]
    omega
  rw [readFront_of_read (read_bytes hversion htype tail), if_neg hroom]
  refine (needs_bodyLength hsize tail).bind fun _ ↦ ?_
  rw [hbody]
  exact (needs_readBody c).map _

/-- What is read from the front of a buffer is a chunk, which ends the buffer if it is padded. -/
theorem readFront_eq_ok_iff {bs : Bytes} {p : RtcpPacket} {h : RtcpHeader} :
    RtcpPacket.readFront bs = .ok (p, h) ↔ ∃ (c : Chunk) (tail : Bytes), bs = c.bytes ++ tail ∧
      c.WellFormed ∧ (c.isPadded = true → tail = []) ∧ p = c.packet ∧ h = c.header := by
  constructor
  · intro hfront
    cases hread : RtcpHeader.read bs with
    | error e =>
      rw [RtcpPacket.readFront, hread] at hfront
      cases hfront
    | ok header =>
      have hroom : ¬bs.length < header.length := fun hshort ↦ by
        rw [readFront_of_read hread, if_pos hshort] at hfront
        cases hfront
      obtain ⟨c, tail, rfl, rfl, hversion, htype, hsize⟩ :=
        exists_of_read hread (Nat.not_lt.mp hroom)
      obtain ⟨⟨hpadded, hbody⟩, heq⟩ :=
        (needs_readFront hversion htype hsize tail).ok_iff.mp hfront
      obtain ⟨rfl, rfl⟩ := Prod.mk.inj heq
      exact ⟨c, tail, rfl, ⟨hversion, htype, hsize, fun h ↦ (hpadded h).2, hbody⟩,
        fun h ↦ (hpadded h).1, rfl, rfl⟩
  · rintro ⟨c, tail, rfl, hc, hlast, rfl, rfl⟩
    refine (needs_readFront hc.version hc.type hc.size tail).1 ⟨fun hpadded ↦ ?_, hc.body⟩
    exact ⟨hlast hpadded, hc.padding hpadded⟩

/-! ## Rows of chunks -/

/-- A buffer is a row of well-formed chunks, of which only the last may be padded. -/
structure Tile (cs : List Chunk) (bs : Bytes) : Prop where
  /-- The chunks follow each other and fill the buffer. -/
  bytes : bs = cs.flatMap Chunk.bytes
  /-- Every chunk keeps the rules. -/
  wellFormed : ∀ c ∈ cs, c.WellFormed
  /-- Padding ends the buffer. -/
  unpadded : ∀ c ∈ cs.dropLast, c.isPadded = false

theorem tile_nil_iff {cs : List Chunk} : Tile cs [] ↔ cs = [] := by
  constructor
  · intro h
    cases cs with
    | nil => rfl
    | cons c cs => cases h.bytes
  · rintro rfl
    exact ⟨rfl, by simp, by simp⟩

/-- A row splits at its first chunk; if that one is padded, nothing follows. -/
theorem tile_cons_iff {cs : List Chunk} {bs : Bytes} : Tile (c :: cs) bs ↔ ∃ tail,
    bs = c.bytes ++ tail ∧ c.WellFormed ∧ (c.isPadded = true → tail = []) ∧ Tile cs tail := by
  constructor
  · intro h
    refine ⟨cs.flatMap bytes, h.bytes, h.wellFormed c List.mem_cons_self, fun hpadded ↦ ?_, rfl,
      fun d hd ↦ h.wellFormed d (List.mem_cons_of_mem c hd), fun d hd ↦ ?_⟩
    · cases cs with
      | nil => rfl
      | cons d cs =>
        have := h.unpadded c (by simp)
        simp [hpadded] at this
    · cases cs with
      | nil => cases hd
      | cons d' cs => exact h.unpadded d (List.mem_cons_of_mem c hd)
  · rintro ⟨tail, rfl, hc, hlast, h⟩
    refine ⟨by rw [h.bytes, List.flatMap_cons], ?_, fun d hd ↦ ?_⟩
    · exact List.forall_mem_cons.mpr ⟨hc, h.wellFormed⟩
    · cases cs with
      | nil => cases hd
      | cons d' cs =>
        rcases List.mem_cons.mp hd with rfl | hd
        · refine Bool.not_eq_true _ ▸ fun hpadded ↦ ?_
          have := h.bytes
          cases (hlast hpadded).symm.trans this
        · exact h.unpadded d hd

/-- The length in a header is the way to what follows the chunk. -/
theorem drop_length_header (hc : c.WellFormed) (tail : Bytes) :
    (c.bytes ++ tail).drop c.header.length = tail := by
  rw [length_header, ← hc.size, List.drop_left]

theorem readRest_of_ne_nil {bs : Bytes} (h : bs ≠ []) : RtcpPacket.readRest bs =
    (RtcpPacket.readFront bs).bind fun x ↦
      (RtcpPacket.readRest (bs.drop x.2.length)).bind fun ps ↦ .ok (x.1 :: ps) := by
  rw [RtcpPacket.readRest, dif_neg h]
  cases RtcpPacket.readFront bs with
  | error e => rfl
  | ok x =>
    change _ = (RtcpPacket.readRest (bs.drop x.2.length)).bind _
    cases h : RtcpPacket.readRest (bs.drop x.2.length) <;> simp only [h] <;> rfl

theorem readRest_cons (hc : c.WellFormed) {tail : Bytes} (hlast : c.isPadded = true → tail = []) :
    RtcpPacket.readRest (c.bytes ++ tail) = (RtcpPacket.readRest tail).map (c.packet :: ·) := by
  have hfront : RtcpPacket.readFront (c.bytes ++ tail) = .ok (c.packet, c.header) :=
    readFront_eq_ok_iff.mpr ⟨c, tail, rfl, hc, hlast, rfl, rfl⟩
  have hbytes : c.bytes ++ tail ≠ [] := List.cons_ne_nil _ _
  rw [readRest_of_ne_nil hbytes, hfront]
  change (RtcpPacket.readRest ((c.bytes ++ tail).drop c.header.length)).bind _ = _
  rw [drop_length_header hc]
  cases RtcpPacket.readRest tail <;> rfl

theorem readRest_of_tile {cs : List Chunk} {bs : Bytes} (h : Tile cs bs) :
    RtcpPacket.readRest bs = .ok (cs.map packet) := by
  induction cs generalizing bs with
  | nil => rw [h.bytes, List.flatMap_nil, RtcpPacket.readRest, dif_pos rfl, List.map_nil]
  | cons c cs ih =>
    obtain ⟨tail, rfl, hc, hlast, htail⟩ := tile_cons_iff.mp h
    rw [readRest_cons hc hlast, ih htail]
    rfl

theorem exists_tile_of_readRest {bs : Bytes} {ps : List RtcpPacket}
    (h : RtcpPacket.readRest bs = .ok ps) : ∃ cs, Tile cs bs ∧ ps = cs.map packet := by
  fun_induction RtcpPacket.readRest bs generalizing ps with
  | case1 => exact ⟨[], tile_nil_iff.mpr rfl, (Except.ok.inj h).symm⟩
  | case2 | case3 => cases h
  | case4 bs _ p header hfront ps' hrest ih =>
    obtain ⟨c, tail, rfl, hc, hlast, rfl, rfl⟩ := readFront_eq_ok_iff.mp hfront
    rw [drop_length_header hc] at hrest ih
    obtain ⟨cs, hcs, rfl⟩ := ih hrest
    refine ⟨c :: cs, tile_cons_iff.mpr ⟨tail, rfl, hc, hlast, hcs⟩, ?_⟩
    rw [← Except.ok.inj h, List.map_cons]

/-- Reading accepts the rows of chunks, and nothing else. -/
theorem readCompound_eq_ok_iff {bs : Bytes} {ps : List RtcpPacket} :
    RtcpPacket.readCompound bs = .ok ps ↔ ∃ cs, cs ≠ [] ∧ Tile cs bs ∧ ps = cs.map packet := by
  rw [RtcpPacket.readCompound]
  by_cases hbs : bs = []
  · subst hbs
    constructor
    · intro h
      cases h
    · rintro ⟨cs, hne, hcs, _⟩
      exact absurd (tile_nil_iff.mp hcs) hne
  · rw [if_neg hbs]
    constructor
    · intro h
      obtain ⟨cs, hcs, rfl⟩ := exists_tile_of_readRest h
      refine ⟨cs, ?_, hcs, rfl⟩
      rintro rfl
      exact hbs hcs.bytes
    · rintro ⟨cs, _, hcs, rfl⟩
      exact readRest_of_tile hcs

/-- A goodbye with padding is refused where another follows. -/
example : RtcpPacket.readCompound [0xA0, 203, 0, 1, 0, 0, 0, 4, 0x80, 203, 0, 0] =
    .error .earlyPadding := by cbv

end Chunk

end OfferAnswer
