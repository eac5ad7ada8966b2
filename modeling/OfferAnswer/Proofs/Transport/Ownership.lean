import OfferAnswer.Proofs.Rtcp.Format
import OfferAnswer.Proofs.Since
import OfferAnswer.Proofs.Transport.Demultiplexing

/-!
# Whose packets they are

A demultiplexer is driven by `Call`s, and `run` is the demultiplexer after a history of them, oldest
first. Where a packet goes is read off the history alone.

The last word on a source counts: a section owns it that got it last, if nothing took it away since
(`OwnsSsrc`). Of a payload type the first word counts, but only as long as its owner is there: a
section owns it that asked for it when it was vacant, and was not given up since (`OwnsType`).
`Vacant` is about tenancies. Nobody has asked for the type since the last owner, if there was one,
was given up; a section that asked in vain meanwhile has to ask again.

`Recalls` says that a demultiplexer knows just that. It is kept by every call.
-/

namespace OfferAnswer.Demux

variable {d : Demux} {pt t : PayloadType} {mid m : Mid} {ssrc s : Ssrc}

/-! ## Sources -/

/-- No source has two sections. -/
def SsrcsKeyed (d : Demux) : Prop := (d.bySsrc.map (·.1)).Nodup

theorem SsrcsKeyed.ofSsrc?_eq_some_iff (h : d.SsrcsKeyed) :
    d.ofSsrc? s = some mid ↔ (s, mid) ∈ d.bySsrc := lookup_eq_some_iff h

theorem SsrcsKeyed.sublist {d' : Demux} (h : d.SsrcsKeyed) (hsub : d'.bySsrc.Sublist d.bySsrc) :
    d'.SsrcsKeyed := List.Nodup.sublist (hsub.map _) h

theorem SsrcsKeyed.addSsrc (h : d.SsrcsKeyed) (ssrc : Ssrc) (mid : Mid) :
    (d.addSsrc ssrc mid).SsrcsKeyed := by
  rw [SsrcsKeyed, Demux.addSsrc, List.map_append]
  refine List.nodup_append.mpr ⟨List.Nodup.sublist (List.filter_sublist.map _) h,
    List.nodup_singleton _, fun r hr r' hr' ↦ ?_⟩
  obtain ⟨x, hx, rfl⟩ := List.mem_map.mp hr
  rw [List.mem_singleton.mp hr']
  simpa using (List.mem_filter.mp hx).2

theorem mem_bySsrc_addSsrc : (s, m) ∈ (d.addSsrc ssrc mid).bySsrc ↔
    ((s, m) ∈ d.bySsrc ∧ s ≠ ssrc) ∨ (s = ssrc ∧ m = mid) := by
  simp [addSsrc, List.mem_filter]

theorem bySsrc_removeSsrc (h : d.SsrcsKeyed) : (s, m) ∈ (d.removeSsrc ssrc mid).bySsrc ↔
    (s, m) ∈ d.bySsrc ∧ ¬(s = ssrc ∧ m = mid) := by
  rw [removeSsrc]
  split
  · rename_i howner
    rw [List.mem_filter, bne_iff_ne]
    refine and_congr_right fun hmem ↦ not_congr ⟨?_, And.left⟩
    rintro rfl
    -- the source has no other section
    have hother := h.ofSsrc?_eq_some_iff.mpr hmem
    exact ⟨rfl, Option.some_inj.mp (hother.symm.trans howner)⟩
  · rename_i hother
    refine (and_iff_left_of_imp ?_).symm
    rintro hmem ⟨rfl, rfl⟩
    exact hother (h.ofSsrc?_eq_some_iff.mpr hmem)

/-! ## Packets -/

theorem isRtp_iff {buffer : Bytes} : isRtp buffer = true ↔ 12 ≤ buffer.length ∧
    (buffer.getD 0 0).toNat / 64 = 2 ∧
    ¬(192 ≤ (buffer.getD 1 0).toNat ∧ (buffer.getD 1 0).toNat ≤ 223) := by
  have hversion (b : UInt8) : (b >>> 6 == 2) = true ↔ b.toNat / 64 = 2 := by
    rw [beq_iff_eq, ← UInt8.toNat_inj, UInt8.toNat_shiftRight, Nat.shiftRight_eq_div_pow]
    rfl
  have hrange (b : UInt8) : RtcpHeader.isRtcpType b = true ↔ 192 ≤ b.toNat ∧ b.toNat ≤ 223 := by
    rw [RtcpHeader.isRtcpType, Bool.and_eq_true, decide_eq_true_iff, decide_eq_true_iff,
      UInt8.le_iff_toNat_le, UInt8.le_iff_toNat_le]
    rfl
  rw [isRtp, Bool.and_eq_true, Bool.and_eq_true, decide_eq_true_iff, hversion, Bool.not_eq_true',
    ← Bool.not_eq_true, hrange, and_assoc]

/-- The payload type is what the second byte has besides its mark. -/
theorem toNat_typeOf (buffer : Bytes) : (typeOf buffer).toNat = (buffer.getD 1 0).toNat % 128 := by
  rw [typeOf, UInt8.toNat_and]
  exact Nat.and_two_pow_sub_one_eq_mod _ 7

/-! ## Histories -/

/-- What can be asked of a demultiplexer. -/
inductive Call where
  /-- Give a source to a section. -/
  | addSsrc (ssrc : Ssrc) (mid : Mid)
  /-- Take a source from a section. -/
  | removeSsrc (ssrc : Ssrc) (mid : Mid)
  /-- Give a payload type to a section. -/
  | addType (pt : PayloadType) (mid : Mid)
  /-- Give a section up. -/
  | removeMid (mid : Mid)
deriving DecidableEq

/-- The demultiplexer after a call. -/
def call (d : Demux) : Call → Demux
  | .addSsrc ssrc mid => d.addSsrc ssrc mid
  | .removeSsrc ssrc mid => d.removeSsrc ssrc mid
  | .addType pt mid => d.addType pt mid
  | .removeMid mid => d.removeMid mid

/-- The demultiplexer after a history of calls. -/
def run (h : List Call) : Demux := h.foldl call {}

variable {h : List Call} {x : Call}

theorem run_snoc (h : List Call) (x : Call) : run (h ++ [x]) = (run h).call x := by
  rw [run, List.foldl_concat]
  rfl

/-- A section owns a source: it got it, nobody got it since, and it was not taken away. -/
def OwnsSsrc (h : List Call) (ssrc : Ssrc) (mid : Mid) : Prop :=
  Since (fun _ x ↦ x = .addSsrc ssrc mid)
    (fun _ x ↦ (∃ m, x = .addSsrc ssrc m) ∨ x = .removeSsrc ssrc mid ∨ x = .removeMid mid) h

/-- A payload type is vacant after a history: the history is made of tenancies and of calls between
them that do not ask for the type. A tenancy begins with the section that asks for the vacant type,
and ends when that section is given up for the first time. -/
inductive Vacant (pt : PayloadType) : List Call → Prop
  /-- At first every type is. -/
  | nil : Vacant pt []
  /-- Nobody asks for it. -/
  | idle {h : List Call} {x : Call} : Vacant pt h → (∀ mid, x ≠ .addType pt mid) →
    Vacant pt (h ++ [x])
  /-- A section has it, and is given up. -/
  | tenancy {h during : List Call} {mid : Mid} : Vacant pt h → .removeMid mid ∉ during →
    Vacant pt (h ++ .addType pt mid :: during ++ [.removeMid mid])

/-- A section owns a payload type: it asked for it when it was vacant, and was not given up. -/
def OwnsType (h : List Call) (pt : PayloadType) (mid : Mid) : Prop :=
  Since (fun past x ↦ Vacant pt past ∧ x = .addType pt mid) (fun _ x ↦ x = .removeMid mid) h

theorem ownsSsrc_snoc : OwnsSsrc (h ++ [x]) ssrc mid ↔ x = .addSsrc ssrc mid ∨
    (OwnsSsrc h ssrc mid ∧
      ¬((∃ m, x = .addSsrc ssrc m) ∨ x = .removeSsrc ssrc mid ∨ x = .removeMid mid)) :=
  since_snoc

theorem ownsType_snoc : OwnsType (h ++ [x]) pt mid ↔
    (Vacant pt h ∧ x = .addType pt mid) ∨ (OwnsType h pt mid ∧ x ≠ .removeMid mid) := since_snoc

/-- A type becomes vacant only when its owner is given up. -/
theorem vacant_snoc : Vacant pt (h ++ [x]) ↔
    (Vacant pt h ∧ ∀ mid, x ≠ .addType pt mid) ∨ ∃ mid, OwnsType h pt mid ∧ x = .removeMid mid := by
  constructor
  · generalize hlong : h ++ [x] = long
    rintro (_ | ⟨hvacant, hidle⟩ | ⟨hvacant, hkept⟩)
    · exact absurd hlong (List.append_ne_nil_of_right_ne_nil h (List.cons_ne_nil x []))
    · obtain ⟨rfl, hx⟩ := List.append_inj' hlong rfl
      obtain rfl := List.singleton_inj.mp hx
      exact .inl ⟨hvacant, hidle⟩
    · obtain ⟨rfl, hx⟩ := List.append_inj' hlong rfl
      obtain rfl := List.singleton_inj.mp hx
      refine .inr ⟨_, since_iff.mpr ⟨_, _, _, rfl, ⟨hvacant, rfl⟩, ?_⟩, rfl⟩
      rintro y hy rfl
      exact hkept hy
  · rintro (⟨hvacant, hidle⟩ | ⟨mid, howns, rfl⟩)
    · exact .idle hvacant hidle
    · obtain ⟨past, _, later, rfl, ⟨hvacant, rfl⟩, hkept⟩ := since_iff.mp howns
      exact .tenancy hvacant fun hmem ↦ hkept _ hmem rfl

/-- A section that is given up loses its sources, and nobody else does. -/
theorem ownsSsrc_removeMid {gone : Mid} :
    OwnsSsrc (h ++ [.removeMid gone]) ssrc mid ↔ OwnsSsrc h ssrc mid ∧ mid ≠ gone := by
  rw [ownsSsrc_snoc]
  grind

theorem ownsType_removeMid {gone : Mid} :
    OwnsType (h ++ [.removeMid gone]) pt mid ↔ OwnsType h pt mid ∧ mid ≠ gone := by
  rw [ownsType_snoc]
  grind

/-! ## The invariant -/

/-- A demultiplexer knows of sources and payload types what its history says. -/
structure Recalls (d : Demux) (h : List Call) : Prop where
  /-- No source has two sections. -/
  ssrcsKeyed : d.SsrcsKeyed
  /-- No payload type has two sections. -/
  typesKeyed : d.TypesKeyed
  /-- A source has its owner. -/
  mem_bySsrc : ∀ s m, (s, m) ∈ d.bySsrc ↔ OwnsSsrc h s m
  /-- A payload type has its owner. -/
  mem_byType : ∀ t m, (t, m) ∈ d.byType ↔ OwnsType h t m
  /-- A payload type without an owner is vacant. -/
  vacant : ∀ t, d.ofType? t = none ↔ Vacant t h

namespace Recalls

theorem nil : Recalls {} [] where
  ssrcsKeyed := List.nodup_nil
  typesKeyed := typesKeyed_empty
  mem_bySsrc _ _ := iff_of_false List.not_mem_nil not_since_nil
  mem_byType _ _ := iff_of_false List.not_mem_nil not_since_nil
  vacant _ := iff_of_true rfl .nil

theorem ofSsrc?_eq_some_iff (hr : Recalls d h) : d.ofSsrc? s = some m ↔ OwnsSsrc h s m :=
  hr.ssrcsKeyed.ofSsrc?_eq_some_iff.trans (hr.mem_bySsrc s m)

theorem ofType?_eq_some_iff (hr : Recalls d h) : d.ofType? t = some m ↔ OwnsType h t m :=
  hr.typesKeyed.ofType?_eq_some_iff.trans (hr.mem_byType t m)

/-- What concerns sources alone leaves the payload types. -/
theorem of_sources {d' : Demux} (hr : Recalls d h) (htypes : d'.byType = d.byType)
    (hadd : ∀ pt mid, x ≠ .addType pt mid) (hremove : ∀ mid, x ≠ .removeMid mid)
    (hkeyed : d'.SsrcsKeyed) (hssrcs : ∀ s m, (s, m) ∈ d'.bySsrc ↔ OwnsSsrc (h ++ [x]) s m) :
    Recalls d' (h ++ [x]) where
  ssrcsKeyed := hkeyed
  typesKeyed := by rw [TypesKeyed, htypes]; exact hr.typesKeyed
  mem_bySsrc := hssrcs
  mem_byType t m := by
    rw [htypes, hr.mem_byType, ownsType_snoc, or_iff_right fun hx ↦ hadd t m hx.2,
      and_iff_left (hremove m)]
  vacant t := by
    rw [ofType?, htypes, ← ofType?, hr.vacant, vacant_snoc, and_iff_left (hadd t), or_iff_left]
    rintro ⟨m, -, hx⟩
    exact hremove m hx

theorem addSsrc (hr : Recalls d h) (ssrc : Ssrc) (mid : Mid) :
    Recalls (d.addSsrc ssrc mid) (h ++ [.addSsrc ssrc mid]) := by
  refine hr.of_sources rfl (fun _ _ ↦ Call.noConfusion) (fun _ ↦ Call.noConfusion)
    (hr.ssrcsKeyed.addSsrc ssrc mid) fun s m ↦ ?_
  rw [mem_bySsrc_addSsrc, hr.mem_bySsrc, ownsSsrc_snoc]
  grind

theorem removeSsrc (hr : Recalls d h) (ssrc : Ssrc) (mid : Mid) :
    Recalls (d.removeSsrc ssrc mid) (h ++ [.removeSsrc ssrc mid]) := by
  have hframe : (d.removeSsrc ssrc mid).byType = d.byType ∧
      (d.removeSsrc ssrc mid).bySsrc.Sublist d.bySsrc := by
    rw [Demux.removeSsrc]
    split
    · exact ⟨rfl, List.filter_sublist⟩
    · exact ⟨rfl, List.Sublist.refl _⟩
  refine hr.of_sources hframe.1 (fun _ _ ↦ Call.noConfusion) (fun _ ↦ Call.noConfusion)
    (hr.ssrcsKeyed.sublist hframe.2) fun s m ↦ ?_
  rw [bySsrc_removeSsrc hr.ssrcsKeyed, hr.mem_bySsrc, ownsSsrc_snoc]
  grind

theorem addType (hr : Recalls d h) (pt : PayloadType) (mid : Mid) :
    Recalls (d.addType pt mid) (h ++ [.addType pt mid]) := by
  have hframe : (d.addType pt mid).bySsrc = d.bySsrc := by
    rw [Demux.addType]
    split <;> rfl
  have hkeyed := hr.typesKeyed.addType pt mid
  constructor
  · rw [SsrcsKeyed, hframe]
    exact hr.ssrcsKeyed
  · exact hkeyed
  · intro s m
    rw [hframe, hr.mem_bySsrc, ownsSsrc_snoc]
    grind
  · intro t m
    -- an owner stays, and a vacant type gets one
    rw [← hkeyed.ofType?_eq_some_iff, ofType?_addType, Option.or_eq_some_iff,
      hr.ofType?_eq_some_iff, hr.vacant, ownsType_snoc]
    grind
  · intro t
    have hidle : (∀ m, Call.addType pt mid ≠ .addType t m) ↔ t ≠ pt := by
      constructor
      · rintro hidle rfl
        exact hidle mid rfl
      · rintro hne m heq
        cases heq
        exact hne rfl
    rw [ofType?_addType, Option.or_eq_none_iff, hr.vacant, vacant_snoc, hidle, or_iff_left]
    · simp
    · rintro ⟨m, -, hx⟩
      cases hx

theorem removeMid (hr : Recalls d h) (mid : Mid) :
    Recalls (d.removeMid mid) (h ++ [.removeMid mid]) where
  ssrcsKeyed := hr.ssrcsKeyed.sublist List.filter_sublist
  typesKeyed := hr.typesKeyed.removeMid mid
  mem_bySsrc s m := by
    rw [Demux.removeMid, List.mem_filter, hr.mem_bySsrc, ownsSsrc_removeMid, bne_iff_ne]
  mem_byType t m := by
    rw [Demux.removeMid, List.mem_filter, hr.mem_byType, ownsType_removeMid, bne_iff_ne]
  vacant t := by
    rw [hr.typesKeyed.ofType?_removeMid, vacant_snoc, ← hr.vacant]
    simp only [← hr.ofType?_eq_some_iff]
    cases d.ofType? t with
    | none => simp
    | some m =>
      rw [Option.filter_some]
      grind

/-- Every call keeps the demultiplexer in step with its history. -/
theorem call (hr : Recalls d h) (x : Call) : Recalls (d.call x) (h ++ [x]) := by
  cases x with
  | addSsrc ssrc mid => exact hr.addSsrc ssrc mid
  | removeSsrc ssrc mid => exact hr.removeSsrc ssrc mid
  | addType pt mid => exact hr.addType pt mid
  | removeMid mid => exact hr.removeMid mid

end Recalls

theorem recalls_run (h : List Call) : Recalls (run h) h := by
  induction h using List.reverseRecOn with
  | nil => exact Recalls.nil
  | append_singleton h x ih =>
    rw [run_snoc]
    exact ih.call x

/-! ## Routing -/

theorem route_eq_some_iff (hr : Recalls d h) (buffer : Bytes) (mid : Mid) :
    d.route buffer = some mid ↔ isRtp buffer = true ∧ (OwnsSsrc h (ssrcOf buffer) mid ∨
      (∀ m, ¬OwnsSsrc h (ssrcOf buffer) m) ∧ OwnsType h (typeOf buffer) mid) := by
  rw [route]
  split
  · rename_i hrtp
    rw [Option.or_eq_some_iff, Option.eq_none_iff_forall_ne_some, and_iff_right hrtp]
    simp only [ne_eq, hr.ofSsrc?_eq_some_iff, hr.ofType?_eq_some_iff]
  · rename_i hrtp
    exact iff_of_false nofun fun hroute ↦ hrtp hroute.1

/-- **A packet goes to its owner.** After every history of calls a buffer goes to a section exactly
if it is an RTP packet and the section owns its source, or nobody does and the section owns its
payload type, which is the seven low bits of the second byte. When a section is given up nothing
goes to it any more, and what went to another section still goes there. -/
theorem packets_reach_owners (h : List Call) (buffer : Bytes) :
    (∀ mid, (run h).route buffer = some mid ↔
      (12 ≤ buffer.length ∧ (buffer.getD 0 0).toNat / 64 = 2 ∧
        ¬(192 ≤ (buffer.getD 1 0).toNat ∧ (buffer.getD 1 0).toNat ≤ 223)) ∧
      (OwnsSsrc h (buffer.bigEndian 8) mid ∨
        (∀ m, ¬OwnsSsrc h (buffer.bigEndian 8) m) ∧ OwnsType h (typeOf buffer) mid)) ∧
    (typeOf buffer).toNat = (buffer.getD 1 0).toNat % 128 ∧
    ∀ gone, (run (h ++ [.removeMid gone])).route buffer ≠ some gone ∧
      ∀ mid, mid ≠ gone → (run h).route buffer = some mid →
        (run (h ++ [.removeMid gone])).route buffer = some mid := by
  have hroute (h : List Call) := route_eq_some_iff (recalls_run h) buffer
  refine ⟨fun mid ↦ ?_, toNat_typeOf buffer, fun gone ↦ ⟨fun hgone ↦ ?_, fun mid hne hmid ↦ ?_⟩⟩
  · rw [hroute, isRtp_iff]
    refine and_congr_right fun hrtp ↦ ?_
    rw [ssrcOf, Bytes.wordAt_eq (by omega)]
  · rcases ((hroute _ gone).mp hgone).2 with howns | ⟨-, howns⟩
    · exact (ownsSsrc_removeMid.mp howns).2 rfl
    · exact (ownsType_removeMid.mp howns).2 rfl
  · obtain ⟨hrtp, howns | ⟨hnobody, howns⟩⟩ := (hroute h mid).mp hmid
    · exact (hroute _ mid).mpr ⟨hrtp, .inl (ownsSsrc_removeMid.mpr ⟨howns, hne⟩)⟩
    · exact (hroute _ mid).mpr ⟨hrtp, .inr ⟨fun m hm ↦ hnobody m (ownsSsrc_removeMid.mp hm).1,
        ownsType_removeMid.mpr ⟨howns, hne⟩⟩⟩

/-- Video asks in vain for the payload type of audio, and takes a source from it. -/
def contested : List Call :=
  [.addType 96 (.ofText "a"), .addType 96 (.ofText "v"), .addSsrc 7 (.ofText "a"),
    .addSsrc 7 (.ofText "v"), .removeSsrc 7 (.ofText "a")]

/-- A packet of the contested type, marked, from a source. -/
def contestedPacket (source : UInt8) : Bytes := [0x80, 0xE0, 0, 1, 0, 0, 0, 0, 0, 0, 0, source]

theorem contested_type_kept : Mid.ofText "a" ≠ Mid.ofText "v" ∧
    (run contested).route (contestedPacket 9) = some (.ofText "a") ∧
    (run (contested ++ [.removeMid (.ofText "v")])).route (contestedPacket 9) =
      some (.ofText "a") := by
  have hother : Mid.ofText "a" ≠ Mid.ofText "v" := by decide
  have hbefore : (run contested).route (contestedPacket 9) = some (.ofText "a") := by decide
  exact ⟨hother, hbefore,
    ((packets_reach_owners contested (contestedPacket 9)).2.2 _).2 _ hother hbefore⟩

/-- The source is video's; when video is given up, the type shows, and that is audio's. -/
example : (run contested).route (contestedPacket 7) = some (.ofText "v") ∧
    (run (contested ++ [.removeMid (.ofText "v")])).route (contestedPacket 7) =
      some (.ofText "a") := by decide

end OfferAnswer.Demux
