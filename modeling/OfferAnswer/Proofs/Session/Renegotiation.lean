import OfferAnswer.Proofs.Session.Exchange
import OfferAnswer.Proofs.Session.Persistence

/-!
# Negotiating again

Two sessions that have negotiated can do so again. One offers, and its offer restates the last one.
The other finds every section as it was, or rejected where it had rejected it, and gives the same
answer. And the first settles every section as before.

`InStep` is what holds between the two sessions after a round, section by section in `Paired`. The
next round restores it, and all that it changes is the offer: `InStep.next_round`.
-/

namespace OfferAnswer

namespace Session

variable {s ours theirs ours' theirs' : Session} {offer answer : Description} {i : Nat}
  {o a : Section} {n n' : NegotiatedMedia} {mid : Mid}

/-! ## Groups -/

theorem acceptedMids_cons (m : Section) (ms : List Section) : acceptedMids (m :: ms) =
    (if m.isRejected then [] else m.mid?.toList) ++ acceptedMids ms := by
  cases hrej : m.isRejected with
  | true => simp [acceptedMids, hrej]
  | false => cases hmid : m.mid? <;> simp [acceptedMids, hrej, hmid]

theorem named_of_mem_offerGroup {ms : List Section}
    (h : ∀ m ∈ ms, ∀ mid, m.mid? = some mid → mid.Named) :
    ∀ mid ∈ s.offerGroup ms, mid.Named := by
  intro mid hmid
  rw [offerGroup] at hmid
  split at hmid
  · obtain ⟨m, hm, -, hdeclared⟩ := mem_acceptedMids.mp hmid
    exact h m hm mid hdeclared
  · cases hmid

/-- A section and its answer: they have one identifier, and the answer is not accepted alone. -/
structure Matches (o a : Section) : Prop where
  /-- The identifiers agree. -/
  mid_eq : o.mid? = a.mid?
  /-- What is accepted was offered. -/
  offered : a.isRejected = false → o.isRejected = false

/-- Among matching sections, those whose answer is accepted can be told by their identifiers, if
these are distinct. -/
theorem filter_acceptedMids {p : Mid → Bool} {os as : List Section}
    (h : List.Forall₂ Matches os as)
    (hp : ∀ a ∈ as, ∀ mid, a.mid? = some mid → p mid = !a.isRejected) :
    (acceptedMids os).filter p = acceptedMids as := by
  induction h with
  | nil => rfl
  | @cons o a os as hone _ ih =>
    have hrest := ih fun a' ha' ↦ hp a' (List.mem_cons_of_mem a ha')
    have hfirst : ∀ mid ∈ a.mid?.toList, p mid = !a.isRejected := by
      simpa using hp a List.mem_cons_self
    rw [acceptedMids_cons, acceptedMids_cons, List.filter_append, hrest, hone.mid_eq]
    congr 1
    cases hrej : a.isRejected with
    | true =>
      rw [hrej] at hfirst
      split
      · rfl
      · simpa using hfirst
    | false =>
      rw [hrej] at hfirst
      rw [hone.offered hrej]
      simpa using hfirst

theorem acceptedGroup_acceptedMids {os as : List Section} (h : List.Forall₂ Matches os as)
    (hdistinct : (as.map Section.mid?).Nodup) :
    acceptedGroup (acceptedMids os) as = acceptedMids as := by
  apply filter_acceptedMids h
  intro a ha mid hmid
  rw [Bool.eq_iff_iff, List.any_eq_true]
  constructor
  · rintro ⟨m, hm, haccepted⟩
    rw [Bool.and_eq_true, beq_iff_eq] at haccepted
    -- no other section has this identifier
    obtain rfl : m = a := List.inj_on_of_nodup_map hdistinct hm ha (haccepted.2.trans hmid.symm)
    exact haccepted.1
  · intro haccepted
    exact ⟨a, ha, by simpa [hmid] using haccepted⟩

theorem acceptedGroup_offerGroup {os as : List Section} (h : List.Forall₂ Matches os as)
    (hdistinct : (as.map Section.mid?).Nodup) (s : Session) :
    acceptedGroup (s.offerGroup os) as = s.offerGroup as := by
  rw [offerGroup, offerGroup]
  split
  · exact acceptedGroup_acceptedMids h hdistinct
  · rfl

/-! ## The two sides of a section -/

theorem checkMids_ok {remote : Description} {ns : List NegotiatedMedia}
    (h : ∀ (j : Nat) n, ns[j]? = some n → midAt remote (i + j) = n.mid) :
    checkMids remote i ns = .ok () := by
  induction ns generalizing i with
  | nil => rfl
  | cons n ns ih =>
    have hfirst : midAt remote i = n.mid := h 0 n rfl
    rw [checkMids, if_pos hfirst]
    apply ih
    intro j n' hn'
    rw [Nat.add_right_comm]
    exact h (j + 1) n' hn'

theorem mid?_of_attr? {m : Section} (hmid : mid.Named) (h : m.attr? "mid" = some mid.text) :
    m.mid? = some mid := by
  rw [Section.mid?, h, Option.map_some, hmid.ofText_text]

/-- A section that two sessions have negotiated: `a` is the answer to `o`, and `n` and `n'` are the
outcomes of the offerer and of the answerer. -/
structure Paired (ours theirs : Session) (answer : Description) (i : Nat) (o a : Section)
    (n n' : NegotiatedMedia) : Prop where
  /-- The identifier is made from a name, -/
  named : n.mid.Named
  /-- and both outcomes have it. -/
  mid_eq : n'.mid = n.mid
  /-- The answer declares it, -/
  declared : a.attr? "mid" = some n.mid.text
  /-- is of the kind of the offer, -/
  kind_eq : a.kind = o.kind
  /-- has its protocol, -/
  proto_eq : a.proto = o.proto
  /-- and is consistent. -/
  consistent : a.fault? = none
  /-- The offer has a protocol. -/
  proto_ne : o.proto.isEmpty = false
  /-- The offerer would offer the section again. -/
  reoffers : ours.Reoffers (ours.positionAt i) n o
  /-- If it is rejected, it is so on both sides, -/
  rejected : a.isRejected = true →
    a = .rejected o ∧ n = .refused n.mid o ∧ n' = .refused n.mid o
  /-- and if it is accepted, both sides would do again what they did. -/
  accepted : a.isRejected = false → o.formats ≠ [] ∧
    ours.Writes n.mid (if isSecure o.proto then some .actPass else none) o ∧
      theirs.Answered n' o a ∧ ours.Applied answer i (ours.positionAt i) n o a

theorem Paired.rejected_eq (h : Paired ours theirs answer i o a n n') :
    n.rejected = a.isRejected := by
  cases hrej : a.isRejected with
  | true =>
    obtain ⟨-, hn, -⟩ := h.rejected hrej
    rw [hn]
    rfl
  | false =>
    obtain ⟨-, -, -, _, _, _, _, -, -, -, -, hn⟩ := h.accepted hrej
    rw [hn]

theorem Paired.mid?_offered (h : Paired ours theirs answer i o a n n') : o.mid? = some n.mid :=
  mid?_of_attr? h.named h.reoffers.declared

theorem Paired.mid?_answered (h : Paired ours theirs answer i o a n n') : a.mid? = some n.mid :=
  mid?_of_attr? h.named h.declared

theorem Paired.midAt_eq (h : Paired ours theirs answer i o a n n') {remote : Description}
    (ho : remote.sections[i]? = some o) : midAt remote i = n'.mid := by
  rw [midAt, Description.midOf?_of_mid? ho h.mid?_offered, h.mid_eq]
  rfl

theorem Paired.matches (h : Paired ours theirs answer i o a n n') : Matches o a where
  mid_eq := h.mid?_offered.trans h.mid?_answered.symm
  offered := fun hrej ↦ (h.accepted hrej).2.2.1.offered

theorem Paired.restated (h : Paired ours theirs answer i o a n n') :
    Paired ours theirs answer i (Session.restated n o) a n n' := by
  rw [Session.restated, h.rejected_eq]
  cases hrej : a.isRejected with
  | false => exact h
  | true =>
    obtain ⟨ha, hn, hn'⟩ := h.rejected hrej
    have hrefused : n.rejected = true := by rw [hn]; rfl
    refine ⟨h.named, h.mid_eq, h.declared, h.kind_eq, h.proto_eq, h.consistent, h.proto_ne,
      ⟨?_, ?_⟩, ?_, ?_⟩
    · exact o.attr?_mid_rejected.trans h.reoffers.declared
    · intro haccepted
      rw [hrefused] at haccepted
      cases haccepted
    · intro _
      refine ⟨?_, hn, hn'⟩
      rw [if_pos rfl, Section.rejected_rejected]
      exact ha
    · intro haccepted
      rw [hrej] at haccepted
      cases haccepted

theorem Paired.persist (h : Paired ours theirs answer i o a n n') (hours : Persists ours ours')
    (htheirs : Persists theirs theirs') (hpositions : ours'.sectionHandlers = ours.sectionHandlers)
    (hkept : n.rejected = false →
      ¬Released ours.negotiated n.mid ∧ ¬Released theirs.negotiated n'.mid) :
    Paired ours' theirs' answer i o a n n' := by
  have hposition : ours'.positionAt i = ours.positionAt i := by
    rw [positionAt, positionAt, hpositions]
  refine ⟨h.named, h.mid_eq, h.declared, h.kind_eq, h.proto_eq, h.consistent, h.proto_ne, ?_,
    h.rejected, ?_⟩
  · rw [hposition]
    exact h.reoffers.persist hours fun hrej ↦ (hkept hrej).1
  · intro hrej
    obtain ⟨hformats, hwrites, hanswered, happlied⟩ := h.accepted hrej
    obtain ⟨-, hkept'⟩ := hkept (h.rejected_eq.trans hrej)
    rw [hposition]
    exact ⟨hformats, hwrites.congr hours.credentials_eq hours.config_eq,
      hanswered.persist htheirs hkept', happlied.persist hours⟩

theorem Paired.fault?_offered (h : Paired ours theirs answer i o a n n')
    (hrestated : Session.restated n o = o) : o.fault? = none := by
  apply Description.fault?_eq_none h.proto_ne
  cases hrej : a.isRejected with
  | true =>
    left
    rw [Session.restated, h.rejected_eq, if_pos hrej] at hrestated
    rw [← hrestated]
    rfl
  | false => exact Or.inr (h.accepted hrej).1

theorem Paired.checkRemoteParams_ok (h : Paired ours theirs answer i o a n n')
    (htrusts : theirs.Trusts ours) (hrej : a.isRejected = false) {remote : Description}
    (ho : remote.sections[i]? = some o) (mid : Mid) :
    theirs.checkRemoteParams remote i mid = .ok () := by
  obtain ⟨-, hwrites, hanswered, -⟩ := h.accepted hrej
  exact hwrites.checkRemoteParams_ok htrusts ho hanswered.offered
    (fun hsecure ↦ ⟨_, if_pos hsecure⟩) mid

/-- The answerer answers the section again. -/
theorem Paired.reanswers (h : Paired ours theirs answer i o a n n') (htrusts : theirs.Trusts ours)
    {remote : Description} (ho : remote.sections[i]? = some o)
    (hrestated : Session.restated n o = o) : theirs.Reanswers remote i o a n' where
  midAt_eq := h.midAt_eq ho
  setup_eq := by
    intro hrej hsecure
    obtain ⟨-, hwrites, hanswered, -⟩ := h.accepted hrej
    rw [h.proto_eq] at hsecure
    rw [if_pos hsecure] at hwrites
    exact Description.setup?_of_attr? ho (hwrites.setup_eq hanswered.offered _ rfl)
  rejected := by
    intro hrej
    obtain ⟨ha, -, hn'⟩ := h.rejected hrej
    rw [Session.restated, h.rejected_eq, if_pos hrej] at hrestated
    refine ⟨?_, ha, ?_, ?_⟩
    · rw [← hrestated]
      rfl
    · rw [h.mid_eq]
      exact h.reoffers.declared
    · rw [h.mid_eq]
      exact hn'
  accepted := by
    intro hrej
    exact ⟨h.checkRemoteParams_ok htrusts hrej ho n'.mid, (h.accepted hrej).2.2.1⟩

/-! ## The two sides of an exchange -/

/-- Sessions that can read each other's certificates and are not both ICE lite. -/
structure Suited (s s' : Session) : Prop where
  /-- The first can read the certificate of the second, -/
  trusts : s.Trusts s'
  /-- and the second that of the first. -/
  trusted : s'.Trusts s
  /-- One of them is no ICE lite agent. -/
  full : ¬(s.config.iceLite = true ∧ s'.config.iceLite = true)

theorem Suited.congr (h : Suited ours theirs) (hours : ours'.config = ours.config)
    (htheirs : theirs'.config = theirs.config) : Suited ours' theirs' where
  trusts := by
    rw [Trusts, hours, htheirs]
    exact h.trusts
  trusted := by
    rw [Trusts, hours, htheirs]
    exact h.trusted
  full := by
    rw [hours, htheirs]
    exact h.full

/-- Two sessions in step: the first has made an offer, the second has given an answer, and the first
has applied it. -/
structure InStep (ours theirs : Session) (offer answer : Description) : Prop where
  /-- The offerer is sound, -/
  sound : ours.Sound
  /-- and so is the answerer. -/
  sound' : theirs.Sound
  /-- The offerer has given up what was rejected, -/
  cleared : ours.Cleared
  /-- and so has the answerer. -/
  cleared' : theirs.Cleared
  /-- They can talk. -/
  suited : Suited ours theirs
  /-- The offerer can make its offer again. -/
  offered : ours.HasOffered offer
  /-- The answerer may answer, -/
  takes : takesOffer theirs.state = true
  /-- the answer was its last description, -/
  answered : theirs.ours = some answer
  /-- and was written by it. -/
  written : answer = theirs.draft theirs.version
    (theirs.sessionAttrs ++ groupAttrs (ours.offerGroup answer.sections)) answer.sections
  /-- Its secure channels have the role that it is configured to take. -/
  keepsRole : theirs.KeepsRole
  /-- There is an answer to every section, -/
  length_answer : answer.sections.length = ours.negotiated.length
  /-- and an outcome. -/
  length_outcome : theirs.negotiated.length = ours.negotiated.length
  /-- No identifier is given twice. -/
  distinct : (ours.negotiated.map (·.mid)).Nodup
  /-- Every section is paired. -/
  pairs : ∀ (i : Nat) o a n n', offer.sections[i]? = some o → answer.sections[i]? = some a →
    ours.negotiated[i]? = some n → theirs.negotiated[i]? = some n' →
      Paired ours theirs answer i o a n n'

theorem writesPart_reoffer (ours : Session) (offer : Description) :
    ours.WritesPart (ours.offerGroup (ours.reoffer offer).sections)
      (ours.reoffer offer).session := rfl

namespace InStep

variable (h : InStep ours theirs offer answer)

include h

theorem length_offer : (ours.reoffer offer).sections.length = ours.negotiated.length := by
  rw [sections_reoffer, restate, List.length_zipWith, ← h.offered.length_eq, Nat.min_self]

/-- Every section of the next offer is paired, and restating it once more changes nothing. -/
theorem exists_pair (hi : i < ours.negotiated.length) : ∃ o a n n',
    (ours.reoffer offer).sections[i]? = some o ∧ answer.sections[i]? = some a ∧
      ours.negotiated[i]? = some n ∧ theirs.negotiated[i]? = some n' ∧
        Paired ours theirs answer i o a n n' ∧ restated n o = o := by
  have hi' : i < theirs.negotiated.length := h.length_outcome.symm ▸ hi
  have ho : i < offer.sections.length := h.offered.length_eq ▸ hi
  have ha : i < answer.sections.length := h.length_answer.symm ▸ hi
  have hpair := h.pairs i _ _ _ _ (List.getElem?_eq_getElem ho) (List.getElem?_eq_getElem ha)
    (List.getElem?_eq_getElem hi) (List.getElem?_eq_getElem hi')
  refine ⟨_, _, _, _, ?_, List.getElem?_eq_getElem ha, List.getElem?_eq_getElem hi,
    List.getElem?_eq_getElem hi', hpair.restated, restated_restated _ _⟩
  rw [sections_reoffer]
  exact getElem?_restate (List.getElem?_eq_getElem hi) (List.getElem?_eq_getElem ho)

theorem pair_again (ho : (ours.reoffer offer).sections[i]? = some o)
    (ha : answer.sections[i]? = some a) (hn : ours.negotiated[i]? = some n)
    (hn' : theirs.negotiated[i]? = some n') :
    Paired ours theirs answer i o a n n' ∧ restated n o = o := by
  obtain ⟨o₀, a₀, n₀, n₀', ho₀, ha₀, hn₀, hn₀', hpair⟩ :=
    h.exists_pair (List.getElem?_eq_some_iff.mp hn).1
  obtain rfl := Option.some.inj (ho₀.symm.trans ho)
  obtain rfl := Option.some.inj (ha₀.symm.trans ha)
  obtain rfl := Option.some.inj (hn₀.symm.trans hn)
  obtain rfl := Option.some.inj (hn₀'.symm.trans hn')
  exact hpair

/-! ### Identifiers -/

theorem mids_eq : theirs.negotiated.map (·.mid) = ours.negotiated.map (·.mid) := by
  apply List.ext_getElem (by simpa using h.length_outcome)
  intro i hi' hi
  rw [List.length_map] at hi hi'
  obtain ⟨o, a, n, n', -, -, hn, hn', hpair, -⟩ := h.exists_pair hi
  rw [List.getElem?_eq_getElem hi, Option.some_inj] at hn
  rw [List.getElem?_eq_getElem hi', Option.some_inj] at hn'
  rw [List.getElem_map, List.getElem_map, hn, hn']
  exact hpair.mid_eq

theorem mids_answer : answer.sections.map Section.mid? = ours.negotiated.map (some ·.mid) := by
  apply List.ext_getElem (by simpa using h.length_answer)
  intro i ha hi
  rw [List.length_map] at ha hi
  obtain ⟨o, a, n, n', -, ha', hn, -, hpair, -⟩ := h.exists_pair hi
  rw [List.getElem?_eq_getElem hi, Option.some_inj] at hn
  rw [List.getElem?_eq_getElem ha, Option.some_inj] at ha'
  rw [List.getElem_map, List.getElem_map, hn, ha']
  exact hpair.mid?_answered

theorem matches_again :
    List.Forall₂ Matches (ours.reoffer offer).sections answer.sections := by
  refine forall₂_of_getElem? (h.length_offer.trans h.length_answer.symm) fun i x y hx hy ↦ ?_
  have hi : i < ours.negotiated.length := h.length_offer ▸ (List.getElem?_eq_some_iff.mp hx).1
  obtain ⟨o, a, n, n', ho, ha, -, -, hpair, -⟩ := h.exists_pair hi
  obtain rfl := Option.some.inj (ho.symm.trans hx)
  obtain rfl := Option.some.inj (ha.symm.trans hy)
  exact hpair.matches

/-- No rejected section has the identifier of an accepted one. -/
theorem not_released (hn : ours.negotiated[i]? = some n) (hn' : theirs.negotiated[i]? = some n')
    (hrej : n.rejected = false) :
    ¬Released ours.negotiated n.mid ∧ ¬Released theirs.negotiated n'.mid := by
  obtain ⟨o, a, n₀, n₀', -, -, hn₀, hn₀', hpair, -⟩ :=
    h.exists_pair (List.getElem?_eq_some_iff.mp hn).1
  obtain rfl := Option.some.inj (hn₀.symm.trans hn)
  obtain rfl := Option.some.inj (hn₀'.symm.trans hn')
  obtain ⟨-, -, hanswered, happlied⟩ := hpair.accepted (hpair.rejected_eq.symm.trans hrej)
  have hdistinct' : (theirs.negotiated.map (·.mid)).Nodup := by
    rw [h.mids_eq]
    exact h.distinct
  constructor
  · exact not_released_of_nodup h.distinct (List.mem_of_getElem? hn) happlied.endpoint_ne
  · exact not_released_of_nodup hdistinct' (List.mem_of_getElem? hn') hanswered.endpoint_ne

/-! ### Groups -/

theorem writesPart_answer :
    theirs.WritesPart (ours.offerGroup answer.sections) answer.session :=
  congrArg (fun d : Description ↦ d.session.attrs) h.written

theorem named_offer {m : Section} (hm : m ∈ (ours.reoffer offer).sections)
    (hmid : m.mid? = some mid) : mid.Named := by
  obtain ⟨i, ho⟩ := List.mem_iff_getElem?.mp hm
  have hi : i < ours.negotiated.length := h.length_offer ▸ (List.getElem?_eq_some_iff.mp ho).1
  obtain ⟨o, a, n, n', ho', -, -, -, hpair, -⟩ := h.exists_pair hi
  obtain rfl := Option.some.inj (ho'.symm.trans ho)
  obtain rfl := Option.some.inj (hpair.mid?_offered.symm.trans hmid)
  exact hpair.named

theorem bundle?_offer : (ours.reoffer offer).session.bundle?.getD [] =
    ours.offerGroup (ours.reoffer offer).sections := by
  apply (writesPart_reoffer ours offer).bundle?_eq
  exact named_of_mem_offerGroup fun m hm mid hmid ↦ h.named_offer hm hmid

theorem acceptedGroup_offer :
    acceptedGroup ((ours.reoffer offer).session.bundle?.getD []) answer.sections =
      ours.offerGroup answer.sections := by
  have hdistinct : (answer.sections.map Section.mid?).Nodup := by
    have hmids := h.distinct.map fun _ _ ↦ Option.some.inj
    rw [List.map_map] at hmids
    rw [h.mids_answer]
    exact hmids
  rw [h.bundle?_offer]
  exact acceptedGroup_offerGroup h.matches_again hdistinct ours

theorem bundle?_answer : answer.session.bundle?.getD [] =
    acceptedGroup ((ours.reoffer offer).session.bundle?.getD []) answer.sections := by
  rw [h.acceptedGroup_offer]
  apply h.writesPart_answer.bundle?_eq
  apply named_of_mem_offerGroup
  intro m hm mid hmid
  obtain ⟨i, ha⟩ := List.mem_iff_getElem?.mp hm
  have hi : i < ours.negotiated.length := h.length_answer ▸ (List.getElem?_eq_some_iff.mp ha).1
  obtain ⟨o, a, n, n', -, ha', -, -, hpair, -⟩ := h.exists_pair hi
  obtain rfl := Option.some.inj (ha'.symm.trans ha)
  obtain rfl := Option.some.inj (hpair.mid?_answered.symm.trans hmid)
  exact hpair.named

/-! ### The answer -/

theorem checkOffer_ok : theirs.checkOffer (ours.reoffer offer) = .ok () := by
  have hconsistent : checkConsistent (ours.reoffer offer) = .ok () := by
    have hfaults : ∀ o ∈ (ours.reoffer offer).sections, o.fault? = none := by
      intro o ho
      obtain ⟨i, ho⟩ := List.mem_iff_getElem?.mp ho
      have hi : i < ours.negotiated.length := h.length_offer ▸ (List.getElem?_eq_some_iff.mp ho).1
      obtain ⟨o', a, n, n', ho', -, -, -, hpair, hrestated⟩ := h.exists_pair hi
      obtain rfl := Option.some.inj (ho'.symm.trans ho)
      exact hpair.fault?_offered hrestated
    exact checkConsistent_ok hfaults
  have hlite : theirs.checkIceLite (ours.reoffer offer) = .ok () :=
    (writesPart_reoffer ours offer).checkIceLite_ok fun hboth ↦ h.suited.full hboth.symm
  have hlen : theirs.negotiated.length ≤ (ours.reoffer offer).sections.length :=
    Nat.le_of_eq (h.length_outcome.trans h.length_offer.symm)
  have hmids : checkMids (ours.reoffer offer) 0 theirs.negotiated = .ok () := by
    apply checkMids_ok
    intro i n' hn'
    have hi : i < ours.negotiated.length := h.length_outcome ▸ (List.getElem?_eq_some_iff.mp hn').1
    obtain ⟨o, a, n, n'', ho, -, -, hn'', hpair, -⟩ := h.exists_pair hi
    obtain rfl := Option.some.inj (hn''.symm.trans hn')
    rw [Nat.zero_add, hpair.midAt_eq ho]
  exact checkOffer_eq_ok.mpr ⟨hconsistent, hlite, hlen, hmids⟩

theorem canReanswer : theirs.receiving.CanReanswer (ours.reoffer offer) answer where
  checked := h.checkOffer_ok
  ours_eq := h.answered
  written := by
    rw [h.acceptedGroup_offer]
    exact h.written
  keepsRole := h.keepsRole
  sections_length := h.length_answer.trans h.length_offer.symm
  negotiated_length := h.length_outcome.trans h.length_offer.symm
  reanswers := by
    intro i o a n' ho ha hn'
    have hi : i < ours.negotiated.length := h.length_offer ▸ (List.getElem?_eq_some_iff.mp ho).1
    have hn := List.getElem?_eq_getElem hi
    obtain ⟨hpair, hrestated⟩ := h.pair_again ho ha hn hn'
    have hreceiving := hpair.persist (.refl ours) (persists_receiving theirs) rfl
      (h.not_released hn hn')
    exact hreceiving.reanswers h.suited.trusted ho hrestated

/-! ### The outcome -/

/-- The offerer settles every section as before. -/
theorem settleSection_again (ho : (ours.reoffer offer).sections[i]? = some o)
    (ha : answer.sections[i]? = some a) (hn : ours.negotiated[i]? = some n) :
    ∃ asked, (ours.reoffered offer).accepting.settleSection
      ⟨ours.reoffer offer, ours.sectionHandlers⟩ answer i o a = .ok (n, asked) := by
  have hi' : i < theirs.negotiated.length :=
    h.length_outcome.symm ▸ (List.getElem?_eq_some_iff.mp hn).1
  obtain ⟨hpair, -⟩ := h.pair_again ho ha hn (List.getElem?_eq_getElem hi')
  have hmid : offeredMid i o = n.mid := by
    rw [offeredMid, hpair.mid?_offered]
    rfl
  cases hrej : a.isRejected with
  | true =>
    obtain ⟨-, hrefused, -⟩ := hpair.rejected hrej
    refine ⟨none, ?_⟩
    rw [settleSection_of_rejected hrej, hmid, ← hrefused]
  | false =>
    obtain ⟨-, -, hanswered, happlied⟩ := hpair.accepted hrej
    obtain ⟨handler, codec, asked, id, hhandler, hcodec, hasked, hid, hout⟩ :=
      happlied.persist (persists_accepting ours offer)
    have hbundled : isUnbundled ((ours.reoffer offer).session.bundle?.getD [])
        (answer.session.bundle?.getD []) n.mid = false := by
      rw [h.bundle?_answer]
      exact isUnbundled_acceptedGroup (List.mem_of_getElem? ha) hrej hpair.mid?_answered
    refine ⟨asked.map fun setup ↦ (id, setup), ?_⟩
    rw [settleSection_of_accepted hmid hhandler hid hanswered.offered hrej hbundled hcodec hasked,
      ← hout]

theorem checkAnswer_again :
    (ours.reoffered offer).accepting.checkAnswer (ours.reoffer offer) answer = .ok () := by
  have hpair : ∀ (i : Nat) a, answer.sections[i]? = some a → ∃ o n n',
      (ours.reoffer offer).sections[i]? = some o ∧ Paired ours theirs answer i o a n n' := by
    intro i a ha
    have hi : i < ours.negotiated.length := h.length_answer ▸ (List.getElem?_eq_some_iff.mp ha).1
    obtain ⟨o, a', n, n', ho, ha', -, -, hpair, -⟩ := h.exists_pair hi
    obtain rfl := Option.some.inj (ha'.symm.trans ha)
    exact ⟨o, n, n', ho, hpair⟩
  apply checkAnswer_ok (h.length_answer.trans h.length_offer.symm)
  · intro a ha
    obtain ⟨i, ha⟩ := List.mem_iff_getElem?.mp ha
    obtain ⟨o, n, n', -, hpair⟩ := hpair i a ha
    exact hpair.consistent
  · intro p hp
    obtain ⟨i, hp⟩ := List.mem_iff_getElem?.mp hp
    obtain ⟨ho, ha⟩ := List.getElem?_zip_eq_some.mp hp
    obtain ⟨o, n, n', ho', hpair⟩ := hpair i p.2 ha
    obtain rfl := Option.some.inj (ho'.symm.trans ho)
    exact ⟨hpair.kind_eq.symm, hpair.matches.mid_eq⟩
  · exact h.writesPart_answer.checkIceLite_ok h.suited.full

theorem exists_accepting : ∃ run : Accepting (ours.reoffered offer).accepting
    ⟨ours.reoffer offer, ours.sectionHandlers⟩ answer, run.outcomes.1 = ours.negotiated := by
  have hsettle : ∀ (i : Nat) p, ((ours.reoffer offer).sections.zip answer.sections)[i]? = some p →
      ∃ n asked, ours.negotiated[i]? = some n ∧ (ours.reoffered offer).accepting.settleSection
        ⟨ours.reoffer offer, ours.sectionHandlers⟩ answer (0 + i) p.1 p.2 = .ok (n, asked) := by
    intro i p hp
    obtain ⟨ho, ha⟩ := List.getElem?_zip_eq_some.mp hp
    have hi : i < ours.negotiated.length := h.length_offer ▸ (List.getElem?_eq_some_iff.mp ho).1
    have hn := List.getElem?_eq_getElem hi
    obtain ⟨asked, hsettle⟩ := h.settleSection_again ho ha hn
    rw [Nat.zero_add]
    exact ⟨_, asked, hn, hsettle⟩
  obtain ⟨outcomes, houtcomes⟩ := settleSections_ok fun i p hp ↦ by
    obtain ⟨n, asked, -, hone⟩ := hsettle i p hp
    exact ⟨_, hone⟩
  refine ⟨⟨outcomes, h.checkAnswer_again, houtcomes⟩, ?_⟩
  obtain ⟨hlen, hget, -⟩ := settleSections_spec houtcomes
  rw [List.length_zip, h.length_offer, h.length_answer, Nat.min_self] at hlen
  apply List.ext_getElem hlen
  intro i hi hi'
  obtain ⟨p, asked, hp, hone⟩ := hget i _ (List.getElem?_eq_getElem hi)
  obtain ⟨n, asked', hn, hone'⟩ := hsettle i p hp
  rw [List.getElem?_eq_getElem hi', Option.some_inj] at hn
  rw [hone, Except.ok.injEq, Prod.mk.injEq] at hone'
  rw [hn]
  exact hone'.1

/-! ### The next round -/

/-- Sessions that have done a round with the next offer are in step, if they persist in it. -/
theorem persist (hours : Persists ours ours') (htheirs : Persists theirs theirs')
    (hsound : ours'.Sound) (hsound' : theirs'.Sound)
    (hlast : ours'.ours = some (ours.reoffer offer))
    (hversion : ours'.version = (ours.reoffer offer).session.version)
    (hpositions : ours'.sectionHandlers = ours.sectionHandlers)
    (hstate : ours'.state = .answerProcessed ∨ ours'.state = .established)
    (hlast' : theirs'.ours = some answer) (hversion' : theirs'.version = theirs.version)
    (hstate' : theirs'.state = .answerGenerated ∨ theirs'.state = .established)
    (hrole : theirs'.KeepsRole) : InStep ours' theirs' (ours.reoffer offer) answer := by
  have hpairs : ∀ (i : Nat) o a n n', (ours.reoffer offer).sections[i]? = some o →
      answer.sections[i]? = some a → ours'.negotiated[i]? = some n →
        theirs'.negotiated[i]? = some n' → Paired ours' theirs' answer i o a n n' := by
    intro i o a n n' ho ha hn hn'
    rw [hours.negotiated_eq] at hn
    rw [htheirs.negotiated_eq] at hn'
    exact (h.pair_again ho ha hn hn').1.persist hours htheirs hpositions (h.not_released hn hn')
  have hgroup (ms : List Section) : ours'.offerGroup ms = ours.offerGroup ms := by
    rw [offerGroup, offerGroup, bundles, bundles, hours.config_eq]
  refine ⟨hsound, hsound', h.cleared.persist hours, h.cleared'.persist htheirs,
    h.suited.congr hours.config_eq htheirs.config_eq, ?_, ?_, hlast', ?_, hrole, ?_, ?_, ?_, hpairs⟩
  · -- the offerer can make the next offer again
    refine ⟨hlast, ?_, ?_, ?_, ?_, ?_, ?_⟩
    · rw [hversion, draft, hours.id_eq, offerAttrs, hgroup, sessionAttrs, hours.config_eq]
      rfl
    · rcases hstate with hstate | hstate <;> simp [hstate]
    · rw [hours.negotiated_eq]
      exact h.length_offer.symm
    · rw [hpositions, hours.negotiated_eq]
      exact h.offered.positions_length
    · rw [hours.handlers_eq, hpositions]
      exact h.offered.placed
    · intro i n o hn ho
      have hi : i < ours.negotiated.length := h.length_offer ▸ (List.getElem?_eq_some_iff.mp ho).1
      have ha : i < answer.sections.length := h.length_answer.symm ▸ hi
      have hn' : i < theirs'.negotiated.length := by
        rw [htheirs.negotiated_eq, h.length_outcome]
        exact hi
      exact (hpairs i o _ n _ ho (List.getElem?_eq_getElem ha) hn
        (List.getElem?_eq_getElem hn')).reoffers
  · rcases hstate' with hstate' | hstate' <;> rw [hstate'] <;> rfl
  · rw [hgroup, hversion', draft, htheirs.id_eq, sessionAttrs, htheirs.config_eq]
    exact h.written
  · rw [hours.negotiated_eq]
    exact h.length_answer
  · rw [hours.negotiated_eq, htheirs.negotiated_eq]
    exact h.length_outcome
  · rw [hours.negotiated_eq]
    exact h.distinct

/-- **Sessions in step stay so**: the next offer restates the last one, the answer is the last one
to the letter, no outcome changes, and no endpoint and no port moves. -/
theorem next_round (ports ports' ports'' : PortAllocator) : ∃ ours' theirs',
    ours.generateOffer ports = ⟨.ok (ours.reoffer offer), ours.reoffered offer, ports⟩ ∧
      theirs.processOffer ports' (ours.reoffer offer) = ⟨.ok answer, theirs', ports'⟩ ∧
      (ours.reoffered offer).processAnswer ports'' answer = ⟨.ok (), ours', ports''⟩ ∧
      Persists ours ours' ∧ Persists theirs theirs' ∧
        InStep ours' theirs' (ours.reoffer offer) answer := by
  have hoffer := h.offered.generateOffer h.sound.exclusive ports
  -- the answer
  obtain ⟨run, hrun, hwritten, houtcomes, hplace, hports⟩ := h.canReanswer.answerOffer
    h.sound'.exclusive h.sound'.hasPem h.sound'.answerSetup_ne ports'
  have hanswer : run.answer = answer := congrArg Prod.fst hwritten
  have htheirs := (persists_receiving theirs).trans
    (run.persists h.cleared' (congrArg Prod.snd hwritten) houtcomes hplace)
  obtain ⟨hlast', hversion', hstate'⟩ := run.record_concluded
  rw [hanswer] at hlast'
  rw [hwritten] at hversion'
  have hrole := run.keepsRole_concluded h.keepsRole fun x hx ↦
    h.canReanswer.setup_of_secured run hanswer hplace hx
  have huncarried : ∀ n ∈ run.outcomes.1, n.endpoint = none →
      run.place.transport.carrier? n.mid = none := by
    rw [houtcomes, hplace]
    exact h.cleared'
  have hleft : run.concluded.2 = ports' := (run.concluded_of_uncarried huncarried).2.trans hports
  have hprocess : theirs.processOffer ports' (ours.reoffer offer) =
      ⟨.ok answer, run.concluded.1, ports'⟩ := by
    rw [processOffer_eq h.takes, hrun, hleft]
    rfl
  have hsound' := h.sound'.processOffer ports' (ours.reoffer offer)
  rw [hprocess] at hsound'
  -- the outcome
  obtain ⟨run', houtcomes'⟩ := h.exists_accepting
  have hours := (persists_accepting ours offer).trans
    (run'.persists h.sound.exclusive h.cleared houtcomes' ports'')
  obtain ⟨hlast, hversion, hpositions, hstate⟩ := run'.record_concluded h.sound.exclusive ports''
  have huncarried' : ∀ n ∈ run'.outcomes.1, n.endpoint = none →
      (ours.reoffered offer).accepting.transport.carrier? n.mid = none := by
    rw [houtcomes']
    exact h.cleared
  have hleft' := (run'.concluded_of_uncarried ports'' huncarried').2
  have happlied : (ours.reoffered offer).processAnswer ports'' answer =
      ⟨.ok (), (run'.concluded ports'').1, ports''⟩ := by
    have hpem : (ours.reoffered offer).accepting.HasPem := h.sound.hasPem
    have hpending : (ours.reoffered offer).pending =
        some ⟨ours.reoffer offer, ours.sectionHandlers⟩ := rfl
    rw [processAnswer_eq rfl hpending, applyAnswer_ok hpem ports'' run', hleft']
    rfl
  have hsound := (h.sound.generateOffer ports).processAnswer ports'' answer
  rw [hoffer, happlied] at hsound
  exact ⟨_, _, hoffer, hprocess, happlied, hours, htheirs, h.persist hours htheirs hsound hsound'
    hlast hversion hpositions hstate hlast' hversion' hstate' hrole⟩

end InStep

end Session

end OfferAnswer
