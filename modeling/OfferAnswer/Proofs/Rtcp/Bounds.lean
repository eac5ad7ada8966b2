import OfferAnswer.Proofs.Rtcp.Format

/-!
# Every look is inside the buffer

The readers look into bytes with accesses that give zero outside. Here the same readers are written
with accesses that have no result there: a `Watched` reading stops for good at the first look
outside, which is neither a value nor an error. `Agrees` says that it never comes to that, and that
the two readers do the same. So the bounds that a reader checks are enough for what it looks at, and
the zeros are never seen.

The watched readers follow the buffer as it is walked, by an offset into the whole of it.
-/

namespace OfferAnswer

/-- A reading that stops for good where it looks outside its bytes. -/
abbrev Watched (α : Type) := ExceptT RtcpError Option α

/-- A watched reading never looks outside, and ends as another reading does. -/
def Agrees {α : Type} (w : Watched α) (r : Except RtcpError α) : Prop := w.run = some r

namespace Watched

/-! ## Accesses -/

/-- The byte at a position. -/
def byte (bs : Bytes) (i : Nat) : Watched UInt8 := ExceptT.lift bs[i]?

/-- The bytes from a position to another. -/
def slice (bs : Bytes) (start stop : Nat) : Watched Bytes :=
  ExceptT.lift (if start ≤ stop ∧ stop ≤ bs.length then some ((bs.take stop).drop start) else none)

/-- The number that four bytes make from a position on. -/
def word (bs : Bytes) (i : Nat) : Watched UInt32 := do
  let a ← byte bs i
  let b ← byte bs (i + 1)
  let c ← byte bs (i + 2)
  let d ← byte bs (i + 3)
  return Bytes.word [a, b, c, d]

/-! ## Readers -/

def header (bs : Bytes) : Watched RtcpHeader :=
  if bs.length < RtcpHeader.size then throw .shortHeader
  else do
    let a ← byte bs 0
    if a >>> 6 ≠ 2 then throw .version
    else
      let b ← byte bs 1
      if !RtcpHeader.isRtcpType b then throw .packetType
      else
        let c ← byte bs 2
        let d ← byte bs 3
        return {
          hasPadding := a &&& 0x20 != 0
          count := a &&& 0x1F
          packetType := b
          words := c.toUInt16 * 256 + d.toUInt16 }

/-- Reads the first source of a body of a given size at least. -/
def sender (size : Nat) (short : RtcpError) (body : Bytes) : Watched Ssrc :=
  if body.length < size then throw short else word body 0

/-- Reads the first of the sources that a count announces. -/
def first (count : UInt8) (body : Bytes) : Watched (Option Ssrc) :=
  if count = 0 then pure none
  else if body.length < 4 then throw .missingSource
  else some <$> word body 0

def feedback (h : RtcpHeader) (body : Bytes) : Watched RtcpPacket :=
  if body.length < 8 then throw .shortFeedback
  else do
    let sender ← word body 0
    let media ← word body 4
    return .feedback h.packetType h.count sender media

def receiverReport (count : Nat) (body : Bytes) : Watched ReceiverReport :=
  if body.length < 4 then throw .shortReceiverReport
  else if body.length < 4 + count * ReceiverReport.blockSize then throw .missingBlocks
  else do
    let sender ← word body 0
    let blocks ← (List.range count).mapM fun i ↦ word body (4 + i * ReceiverReport.blockSize)
    return { sender, blocks }

def intraRequest (body : Bytes) : Watched IntraRequest :=
  if body.length < 16 then throw .shortIntraRequest
  else do
    let sender ← word body 0
    let ssrc ← word body 8
    let number ← byte body 12
    return { sender, ssrc, number }

/-- Looks for the mark of an estimate. -/
def isMarked (body : Bytes) : Watched Bool :=
  if 12 ≤ body.length then (· == BandwidthEstimate.mark) <$> slice body 8 12 else pure false

def estimate (body : Bytes) : Watched BandwidthEstimate :=
  if body.length < 16 then throw .shortEstimate
  else do
    let marked ← isMarked body
    if !marked then throw .missingMark
    else
      let sender ← word body 0
      let count ← byte body 12
      if body.length < 16 + count.toNat * 4 then throw .missingSources
      else
        let scale ← byte body 13
        let middle ← byte body 14
        let low ← byte body 15
        let ssrcs ← (List.range count.toNat).mapM fun i ↦ word body (16 + i * 4)
        return {
          sender
          bitrate := BandwidthEstimate.rate (scale >>> 2).toUInt64
            ((scale &&& 3).toUInt64 * 65536 + middle.toUInt64 * 256 + low.toUInt64)
          ssrcs }

/-- Reads a body by the type in the header. -/
def body (h : RtcpHeader) (bs : Bytes) : Watched RtcpPacket :=
  match RtcpType.ofNumber? h.packetType with
  | none => pure (.unknown h.packetType)
  | some .senderReport => .senderReport <$> sender 24 .shortSenderReport bs
  | some .receiverReport => .receiverReport <$> receiverReport h.count.toNat bs
  | some .sourceDescription => .sourceDescription <$> first h.count bs
  | some .goodbye => .goodbye <$> first h.count bs
  | some .applicationDefined => .applicationDefined <$> sender 8 .shortApplication bs
  | some .extendedReport => .extendedReport <$> sender 4 .shortExtendedReport bs
  | some .transportFeedback => feedback h bs
  | some .payloadFeedback =>
    match FeedbackType.ofNumber? h.count with
    | some .fullIntraRequest => .intraRequest <$> intraRequest bs
    | some .applicationLayer => do
      let marked ← isMarked bs
      if marked then .estimate <$> estimate bs else feedback h bs
    | _ => feedback h bs

/-- The position at which the padding of the packet at the front of a buffer begins. -/
def bodyEnd (h : RtcpHeader) (bs : Bytes) : Watched Nat :=
  if !h.hasPadding then pure h.length
  else if h.length ≠ bs.length then throw .earlyPadding
  else do
    let padding ← byte bs (h.length - 1)
    if padding.toNat = 0 ∨ h.length - RtcpHeader.size < padding.toNat then throw .badPadding
    else return h.length - padding.toNat

/-- Reads the packet at the front of a buffer. -/
def front (bs : Bytes) : Watched (RtcpPacket × RtcpHeader) := do
  let h ← header bs
  if bs.length < h.length then throw .beyondBuffer
  else
    let stop ← bodyEnd h bs
    let inner ← slice bs RtcpHeader.size stop
    (·, h) <$> body h inner

/-- Reads packets from an offset up to the end of a buffer. -/
def rest (bs : Bytes) (offset : Nat) : Watched (List RtcpPacket) :=
  if offset < bs.length then do
    let (p, h) ← front (← slice bs offset bs.length)
    let ps ← rest bs (offset + h.length)
    return p :: ps
  else pure []
termination_by bs.length - offset
decreasing_by
  have := RtcpHeader.size_le_length h
  simp only [RtcpHeader.size] at this
  omega

/-- Reads a whole buffer. -/
def compound (bs : Bytes) : Watched (List RtcpPacket) :=
  if bs = [] then throw .empty else rest bs 0

end Watched

/-! ## Readings that agree -/

namespace Agrees

variable {α β : Type} {w w' : Watched α} {r r' : Except RtcpError α}

theorem pure (a : α) : Agrees (pure a) (.ok a) := rfl

theorem throw (e : RtcpError) : Agrees (throw e : Watched α) (.error e) := rfl

theorem bind (h : Agrees w r) {f : α → Watched β} {g : α → Except RtcpError β}
    (h' : ∀ a, r = .ok a → Agrees (f a) (g a)) : Agrees (w >>= f) (r.bind g) := by
  rw [Agrees, ExceptT.run_bind, h]
  cases r with
  | error e => rfl
  | ok a => exact h' a rfl

theorem map (h : Agrees w r) (f : α → β) : Agrees (f <$> w) (r.map f) := by
  rw [Agrees, ExceptT.run_map, h]
  rfl

theorem ite {p : Prop} [Decidable p] (h : p → Agrees w r) (h' : ¬p → Agrees w' r') :
    Agrees (if p then w else w') (if p then r else r') := by
  by_cases hp : p
  · rw [if_pos hp, if_pos hp]
    exact h hp
  · rw [if_neg hp, if_neg hp]
    exact h' hp

theorem of_bind {a : α} (h : Agrees w (.ok a)) {f : α → Watched β} {s : Except RtcpError β}
    (h' : Agrees (f a) s) : Agrees (w >>= f) s := by
  rw [Agrees, ExceptT.run_bind, h]
  exact h'

theorem mapM {l : List α} {f : α → Watched β} {g : α → β}
    (h : ∀ a ∈ l, Agrees (f a) (.ok (g a))) : Agrees (l.mapM f) (.ok (l.map g)) := by
  induction l with
  | nil => exact pure []
  | cons a l ih =>
    obtain ⟨ha, hl⟩ := List.forall_mem_cons.mp h
    rw [List.mapM_cons]
    exact (ha.of_bind ((ih hl).of_bind (pure _)))

end Agrees

section Accesses

variable {bs : Bytes} {i : Nat}

theorem agrees_byte (h : i < bs.length) : Agrees (Watched.byte bs i) (.ok (bs.getD i 0)) := by
  rw [Watched.byte, List.getElem?_eq_getElem h, List.getD_eq_getElem?_getD,
    List.getElem?_eq_getElem h]
  rfl

theorem agrees_word (h : i + 4 ≤ bs.length) : Agrees (Watched.word bs i) (.ok (bs.wordAt i)) := by
  rw [Bytes.wordAt, Bytes.drop_eq h]
  exact (agrees_byte (by omega)).of_bind <| (agrees_byte (by omega)).of_bind <|
    (agrees_byte (by omega)).of_bind <| (agrees_byte (by omega)).of_bind <| Agrees.pure _

variable (bs) in
theorem agrees_slice {start stop : Nat} (h : start ≤ stop) (h' : stop ≤ bs.length) :
    Agrees (Watched.slice bs start stop) (.ok ((bs.drop start).take (stop - start))) := by
  rw [Watched.slice, if_pos ⟨h, h'⟩, List.drop_take]
  rfl

end Accesses

/-! ## Readers that agree -/

section Readers

variable (bs : Bytes)

theorem agrees_sender (size : Nat) (h : 4 ≤ size) (short : RtcpError) :
    Agrees (Watched.sender size short bs) (RtcpPacket.readSender size short bs) :=
  Agrees.ite (fun _ ↦ Agrees.throw short) fun hlen ↦ agrees_word (by omega)

theorem agrees_first (count : UInt8) :
    Agrees (Watched.first count bs) (RtcpPacket.readFirst count bs) :=
  Agrees.ite (fun _ ↦ Agrees.pure none) fun _ ↦
    Agrees.ite (fun _ ↦ Agrees.throw _) fun hlen ↦ (agrees_word (by omega)).map some

theorem agrees_feedback (h : RtcpHeader) :
    Agrees (Watched.feedback h bs) (RtcpPacket.readFeedback h bs) :=
  Agrees.ite (fun _ ↦ Agrees.throw _) fun hlen ↦
    (agrees_word (by omega)).of_bind <| (agrees_word (by omega)).of_bind <| Agrees.pure _

theorem agrees_receiverReport (count : Nat) :
    Agrees (Watched.receiverReport count bs) (ReceiverReport.read count bs) := by
  refine Agrees.ite (fun _ ↦ Agrees.throw _) fun hshort ↦
    Agrees.ite (fun _ ↦ Agrees.throw _) fun hlen ↦ ?_
  rw [ReceiverReport.blockSize] at hlen
  -- the source of a block lies in the block, and all blocks lie in the body
  have hblocks : Agrees _ (.ok _) := Agrees.mapM (l := List.range count)
    (f := fun i ↦ Watched.word bs (4 + i * ReceiverReport.blockSize)) fun i hi ↦ by
      have hi := List.mem_range.mp hi
      exact agrees_word (by rw [ReceiverReport.blockSize]; omega)
  exact (agrees_word (by omega)).of_bind <| hblocks.of_bind <| Agrees.pure _

theorem agrees_intraRequest : Agrees (Watched.intraRequest bs) (IntraRequest.read bs) :=
  Agrees.ite (fun _ ↦ Agrees.throw _) fun hlen ↦ (agrees_word (by omega)).of_bind <|
    (agrees_word (by omega)).of_bind <| (agrees_byte (by omega)).of_bind <| Agrees.pure _

theorem agrees_isMarked :
    Agrees (Watched.isMarked bs) (.ok (BandwidthEstimate.isMarked bs)) := by
  rw [Watched.isMarked, BandwidthEstimate.isMarked]
  by_cases hlen : 12 ≤ bs.length
  · rw [if_pos hlen, decide_eq_true hlen]
    exact (agrees_slice bs (by omega) hlen).map _
  · rw [if_neg hlen, decide_eq_false hlen]
    exact Agrees.pure false

theorem agrees_estimate : Agrees (Watched.estimate bs) (BandwidthEstimate.read bs) := by
  refine Agrees.ite (fun _ ↦ Agrees.throw _) fun hshort ↦ ?_
  refine (agrees_isMarked bs).of_bind <| Agrees.ite (fun _ ↦ Agrees.throw _) fun _ ↦ ?_
  refine (agrees_word (by omega)).of_bind <| (agrees_byte (by omega)).of_bind <|
    Agrees.ite (fun _ ↦ Agrees.throw _) fun hlen ↦ ?_
  have hssrcs : Agrees _ (.ok _) := Agrees.mapM (l := List.range (bs.getD 12 0).toNat)
    (f := fun i ↦ Watched.word bs (16 + i * 4)) fun i hi ↦ by
      have hi := List.mem_range.mp hi
      exact agrees_word (by omega)
  exact (agrees_byte (by omega)).of_bind <| (agrees_byte (by omega)).of_bind <|
    (agrees_byte (by omega)).of_bind <| hssrcs.of_bind <| Agrees.pure _

theorem agrees_body (h : RtcpHeader) : Agrees (Watched.body h bs) (RtcpPacket.readBody h bs) := by
  rw [Watched.body, RtcpPacket.readBody]
  cases RtcpType.ofNumber? h.packetType with
  | none => exact Agrees.pure _
  | some type =>
    cases type with
    | senderReport => exact (agrees_sender bs 24 (by decide) _).map _
    | receiverReport => exact (agrees_receiverReport bs h.count.toNat).map _
    | sourceDescription => exact (agrees_first bs h.count).map _
    | goodbye => exact (agrees_first bs h.count).map _
    | applicationDefined => exact (agrees_sender bs 8 (by decide) _).map _
    | extendedReport => exact (agrees_sender bs 4 (by decide) _).map _
    | transportFeedback => exact agrees_feedback bs h
    | payloadFeedback =>
      cases FeedbackType.ofNumber? h.count with
      | none => exact agrees_feedback bs h
      | some message =>
        cases message with
        | fullIntraRequest => exact (agrees_intraRequest bs).map _
        | applicationLayer =>
          exact (agrees_isMarked bs).of_bind <|
            Agrees.ite (fun _ ↦ (agrees_estimate bs).map _) fun _ ↦ agrees_feedback bs h
        | pictureLoss | sliceLoss | referencePicture => exact agrees_feedback bs h

theorem agrees_header : Agrees (Watched.header bs) (RtcpHeader.read bs) := by
  match bs with
  | [] | [_] | [_, _] | [_, _, _] => rfl
  | a :: b :: c :: d :: more =>
    have hlen : ¬(a :: b :: c :: d :: more).length < RtcpHeader.size := by
      simp [RtcpHeader.size]
    -- with four bytes in sight both readers look at the same ones in the same order
    rw [Watched.header, if_neg hlen, RtcpHeader.read]
    exact (agrees_byte (by simp)).of_bind <| Agrees.ite (fun _ ↦ Agrees.throw _) fun _ ↦
      (agrees_byte (by simp)).of_bind <| Agrees.ite (fun _ ↦ Agrees.throw _) fun _ ↦
        (agrees_byte (by simp)).of_bind <| (agrees_byte (by simp)).of_bind <| Agrees.pure _

variable {bs}

theorem bodyLength_le {h : RtcpHeader} {n : Nat} (hn : RtcpPacket.bodyLength h bs = .ok n) :
    n ≤ h.length - RtcpHeader.size := by
  rw [RtcpPacket.bodyLength] at hn
  split at hn
  · exact Nat.le_of_eq (Except.ok.inj hn).symm
  · split at hn
    · cases hn
    · dsimp only at hn
      split at hn
      · cases hn
      · rw [← Except.ok.inj hn]
        exact Nat.sub_le _ _

variable (bs)

/-- The padding begins behind the header, as far behind it as the body is long. -/
theorem agrees_bodyEnd (h : RtcpHeader) :
    Agrees (Watched.bodyEnd h bs) ((RtcpPacket.bodyLength h bs).map (RtcpHeader.size + ·)) := by
  have hsize := RtcpHeader.size_le_length h
  have hpos : 0 < h.length := Nat.succ_mul_pos _ (by decide)
  rw [Watched.bodyEnd, RtcpPacket.bodyLength]
  by_cases hpadded : (!h.hasPadding) = true
  · rw [if_pos hpadded, if_pos hpadded]
    exact congrArg (some ∘ Except.ok) (Nat.add_sub_of_le hsize).symm
  · rw [if_neg hpadded, if_neg hpadded]
    by_cases hlast : h.length ≠ bs.length
    · rw [if_pos hlast, if_pos hlast]
      exact Agrees.throw _
    · rw [if_neg hlast, if_neg hlast]
      refine (agrees_byte (by omega)).of_bind ?_
      by_cases hbad : (bs.getD (h.length - 1) 0).toNat = 0 ∨
          h.length - RtcpHeader.size < (bs.getD (h.length - 1) 0).toNat
      · simp only [if_pos hbad]
        exact Agrees.throw _
      · simp only [if_neg hbad]
        refine congrArg (some ∘ Except.ok) ?_
        change _ = RtcpHeader.size + _
        omega

theorem agrees_front : Agrees (Watched.front bs) (RtcpPacket.readFront bs) := by
  rw [Watched.front, Chunk.readFront_eq]
  refine (agrees_header bs).bind fun h _ ↦ Agrees.ite (fun _ ↦ Agrees.throw _) fun hlen ↦ ?_
  have hend := agrees_bodyEnd bs h
  cases hn : RtcpPacket.bodyLength h bs with
  | error e =>
    rw [hn] at hend
    exact hend.bind (g := fun _ ↦ .error e) fun _ h ↦ nomatch h
  | ok n =>
    rw [hn] at hend
    have := bodyLength_le hn
    have := RtcpHeader.size_le_length h
    have hslice := agrees_slice bs (Nat.le_add_right RtcpHeader.size n) (by omega)
    rw [Nat.add_sub_cancel_left] at hslice
    exact hend.of_bind <| hslice.of_bind <| (agrees_body _ h).map _

/-- At every offset the walk sees what is left of the buffer. -/
theorem agrees_rest (offset : Nat) :
    Agrees (Watched.rest bs offset) (RtcpPacket.readRest (bs.drop offset)) := by
  fun_induction Watched.rest bs offset with
  | case1 offset hlt ih =>
    have hleft : bs.drop offset ≠ [] := fun h ↦ Nat.not_lt.mpr (List.drop_eq_nil_iff.mp h) hlt
    have hslice := agrees_slice bs (Nat.le_of_lt hlt) (Nat.le_refl _)
    rw [← List.length_drop, List.take_length] at hslice
    rw [Chunk.readRest_of_ne_nil hleft]
    refine hslice.of_bind <| (agrees_front _).bind fun x _ ↦ ?_
    rw [List.drop_drop]
    exact (ih x.2).bind fun ps _ ↦ Agrees.pure _
  | case2 offset hge =>
    rw [List.drop_eq_nil_of_le (Nat.not_lt.mp hge), RtcpPacket.readRest, dif_pos rfl]
    exact Agrees.pure []

/-- No look at a buffer is outside it. -/
theorem agrees_compound : Agrees (Watched.compound bs) (RtcpPacket.readCompound bs) :=
  Agrees.ite (fun _ ↦ Agrees.throw _) fun _ ↦ agrees_rest bs 0

end Readers

/-! ## The format -/

/-- **Reading accepts the format and nothing else.** A buffer is read as packets exactly if it is a
row of well-formed chunks of which only the last may be padded. The packets are then what the chunks
say, one for each and in order. Whether a buffer is read or not, no byte outside is looked at. -/
theorem RtcpPacket.readCompound_accepts (bs : Bytes) :
    (∀ ps, RtcpPacket.readCompound bs = .ok ps ↔
      ∃ cs : List Chunk, cs ≠ [] ∧ Chunk.Tile cs bs ∧ ps = cs.map Chunk.packet) ∧
    Agrees (Watched.compound bs) (RtcpPacket.readCompound bs) :=
  ⟨fun _ ↦ Chunk.readCompound_eq_ok_iff, agrees_compound bs⟩

end OfferAnswer
