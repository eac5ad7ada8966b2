import OfferAnswer.Proofs.Session.Leakage
import OfferAnswer.Proofs.Session.Positional
import OfferAnswer.Proofs.Transport.Demultiplexing

/-!
# How an exchange concludes

Answering an offer and applying an answer end in the same way: an outcome is committed, with what
the peer has declared. `Concludes` is what both have in common, seen from the session right before
the commit. By then sections are placed, sources are drawn and channels are set; what the peer sends
has not been looked at. So bindings and demultiplexers are still those of the session before, and
what is new about sources and endpoints belongs to sections that are accepted.

`Exchanged` tells the same story from the side of the ports.
-/

namespace OfferAnswer

open TransportBinding (Keeps)

/-! ## Demultiplexers while sections are placed -/

namespace Placement

variable {p p' : Placement}

theorem demuxOf_place (range : PortRange) (bundled : Bool) (mid : Mid) (m : Section)
    (p : Placement) (id : EndpointId) :
    (place range bundled mid m p).2.transport.demuxOf id = p.transport.demuxOf id := by
  rw [place]
  split
  · rw [transport_settle]
  · have hallocate := p.transport.demuxOf_allocate p.ports mid m range
      (if bundled then p.shared else none) id
    split <;> rename_i hr <;> rw [hr] at hallocate
    · exact hallocate
    · rw [transport_settle]
      exact hallocate

theorem demuxOf_placeOne (range : PortRange) (isBundled : Mid → Bool)
    (refuse : Section → Section) (q : Planned) (p : Placement) (id : EndpointId) :
    (placeOne range isBundled refuse q p).2.transport.demuxOf id = p.transport.demuxOf id := by
  rw [placeOne]
  split
  · rfl
  · have hplace := demuxOf_place range (isBundled q.mid) q.mid q.body p id
    split <;> rename_i hr <;> rw [hr] at hplace <;> exact hplace

theorem demuxOf_placeAll {range : PortRange} {isBundled : Mid → Bool}
    {plan : List (Planned × (Section → Section))} {r : Except NegotiationError (List Planned)}
    (h : placeAll range isBundled plan p = (r, p')) (id : EndpointId) :
    p'.transport.demuxOf id = p.transport.demuxOf id := by
  induction plan generalizing p r with
  | nil =>
    cases h
    rfl
  | cons x plan ih =>
    have hone := demuxOf_placeOne range isBundled x.2 x.1 p id
    rw [placeAll] at h
    split at h
    · rename_i hr
      rw [hr] at hone
      cases h
      exact hone
    · rename_i p₁ hr
      rw [hr] at hone
      split at h <;> rename_i hrest <;> cases h <;> exact (ih hrest).trans hone

/-! ## What is new -/

/-- What a placed section takes that was not carried before, it takes for itself. -/
theorem carried_placeOne (hp : p.Ready) {range : PortRange} {isBundled : Mid → Bool}
    {refuse : Section → Section} {q r : Planned}
    (h : placeOne range isBundled refuse q p = (.ok r, p')) {mid : Mid}
    (hmid : p'.transport.Carried mid) :
    p.transport.Carried mid ∨ r.mid = mid ∧ r.body.isRejected = false := by
  have hgrows := grows_placeOne hp range isBundled refuse q
  rw [h] at hgrows
  rcases hgrows.carried mid hmid with hbefore | hnew
  · exact .inl hbefore
  rw [List.mem_singleton] at hnew
  subst hnew
  rw [placeOne] at h
  split at h
  · cases h
    exact .inl hmid
  · rcases place_cases hp range (isBundled q.mid) q.mid q.body with
      ⟨e, p₁, hplace, hp₁, -, he, -⟩ | hplace
    · rw [hplace] at h
      cases h
      -- the port that is written is a real one
      have hport := hp₁.exclusive.rtpPort_ne_zero e he
      exact .inr ⟨rfl, by simpa [Section.isRejected] using hport⟩
    · rw [hplace] at h
      cases h
      exact .inl hmid

theorem carried_placeAll (hp : p.Ready) {range : PortRange} {isBundled : Mid → Bool}
    {plan : List (Planned × (Section → Section))} {placed : List Planned}
    (h : placeAll range isBundled plan p = (.ok placed, p')) {mid : Mid}
    (hmid : p'.transport.Carried mid) :
    p.transport.Carried mid ∨ ∃ r ∈ placed, r.mid = mid ∧ r.body.isRejected = false := by
  induction plan generalizing p placed with
  | nil =>
    cases h
    exact .inl hmid
  | cons x plan ih =>
    obtain ⟨r, p₁, rest, hr, hall, rfl⟩ := placeAll_cons_eq_ok h
    rcases ih (hp.of_placeOne hr).1 hall with hbefore | ⟨r', hr', hnew⟩
    · exact (carried_placeOne hp hr hbefore).imp_right fun hnew ↦ ⟨r, List.mem_cons_self, hnew⟩
    · exact .inr ⟨r', List.mem_cons_of_mem r hr', hnew⟩

end Placement

namespace Session

variable {s s' : Session} {mid : Mid} {id : EndpointId}

/-- A source that is drawn while a section is written is that section's. -/
theorem ssrc?_ensureSsrc_of_ne {mid' : Mid} (h : mid' ≠ mid) (s : Session) :
    (s.ensureSsrc mid').2.ssrc? mid = s.ssrc? mid := by
  rw [ensureSsrc]
  split
  · rfl
  · simp [ssrc?, List.find?_append, h]

theorem ssrc?_decorate {q : Planned} {setup : Option Setup} {v : Ssrc}
    (h : (s.decorate q.mid setup q.body).2.ssrc? mid = some v) :
    s.ssrc? mid = some v ∨ q.mid = mid ∧ q.body.isRejected = false := by
  by_cases hrej : q.body.isRejected = true
  · rw [decorate_of_rejected s _ _ hrej] at h
    exact .inl h
  by_cases hmid : q.mid = mid
  · exact .inr ⟨hmid, Bool.eq_false_iff.mpr hrej⟩
  · rw [decorate_of_accepted s _ _ (Bool.eq_false_iff.mpr hrej), addSource] at h
    split at h
    · rw [← ssrc?_ensureSsrc_of_ne hmid]
      exact .inl h
    · exact .inl h

theorem ssrc?_decorateAll {qs : List (Planned × Option Setup)} {v : Ssrc}
    (h : (s.decorateAll qs).2.ssrc? mid = some v) :
    s.ssrc? mid = some v ∨ ∃ q ∈ qs, q.1.mid = mid ∧ q.1.body.isRejected = false := by
  induction qs generalizing s with
  | nil => exact .inl h
  | cons q qs ih =>
    rcases ih h with hone | ⟨q', hq', hnew⟩
    · exact (ssrc?_decorate hone).imp_right fun hnew ↦ ⟨q, List.mem_cons_self, hnew⟩
    · exact .inr ⟨q', List.mem_cons_of_mem q hq', hnew⟩

theorem demuxOf_setChannels (b : TransportBinding) (cs : List Channel) :
    (setChannels b cs).demuxOf id = b.demuxOf id := by
  induction cs generalizing b with
  | nil => rfl
  | cons c cs ih => exact (ih _).trans (b.demuxOf_setSecure c.endpoint c.side)

/-! ## Both exchanges at once -/

/-- An exchange that has succeeded, by way of the session `base` before its commit. -/
structure Concludes (s base s' : Session) (remote answer : Description) : Prop where
  /-- The session was not closed. -/
  not_closed : s.state ≠ .closed
  /-- Lookups are reliable before the commit. -/
  exclusive : base.transport.Exclusive
  /-- What was carried stays where it was. -/
  keeps : Keeps (fun _ ↦ True) s.transport base.transport
  /-- What is carried besides belongs to accepted sections. -/
  origin : ∀ mid id, base.transport.carrier? mid = some id → s.transport.carrier? mid = some id ∨
    ∃ n ∈ s'.negotiated, n.mid = mid ∧ n.endpoint = some id
  /-- Bindings are what they were. -/
  correlation_eq : base.correlation = s.correlation
  /-- So are demultiplexers. -/
  demux_eq : ∀ id, base.transport.demuxOf id = s.transport.demuxOf id
  /-- Sources stay. -/
  sources : ∀ mid v, s.ssrc? mid = some v → base.ssrc? mid = some v
  /-- Sources that are drawn besides belong to accepted sections. -/
  drawn : ∀ mid v, base.ssrc? mid = some v → s.ssrc? mid = some v ∨
    ∃ n ∈ s'.negotiated, n.mid = mid ∧ n.rejected = false
  /-- Every section of the remote description has an outcome. -/
  length_eq : s'.negotiated.length = remote.sections.length
  /-- So has every section of the answer. -/
  length_answer : answer.sections.length = remote.sections.length
  /-- It has an endpoint exactly if it is accepted. -/
  endpoint_iff : ∀ n ∈ s'.negotiated, n.endpoint = none ↔ n.rejected = true
  /-- The endpoint carries it. -/
  carried : ∀ n ∈ s'.negotiated, ∀ id, n.endpoint = some id →
    base.transport.carrier? n.mid = some id
  /-- It is of the kind of the section. -/
  kind_eq : ∀ (i : Nat) n m, s'.negotiated[i]? = some n → remote.sections[i]? = some m →
    n.kind = m.kind
  /-- The machines and sources are those that the commit leaves. -/
  committed : ∃ ports positions,
    s'.transport = (base.commit ports remote answer s'.negotiated positions).1.transport ∧
    s'.correlation = (base.commit ports remote answer s'.negotiated positions).1.correlation ∧
    s'.ssrcs = (base.commit ports remote answer s'.negotiated positions).1.ssrcs

end Session

/-! ## Answering an offer -/

namespace Answering

open Session

variable {s : Session} {remote : Description}

theorem exists_outcome_of_placed (run : Answering s remote) {r : Planned} (hr : r ∈ run.placed)
    (hrej : r.body.isRejected = false) :
    ∃ n ∈ run.outcomes.1, n.mid = r.mid ∧ n.rejected = false := by
  obtain ⟨i, hi⟩ := List.mem_iff_getElem?.mp hr
  have hlt : i < remote.sections.length := by
    rw [← run.length_placed]
    exact (List.getElem?_eq_some_iff.mp hi).1
  obtain ⟨q, r', a, n, -, hn, hrow⟩ := run.exists_row_of_offered (List.getElem?_eq_getElem hlt)
  obtain rfl : r' = r := Option.some_inj.mp (hrow.placed.symm.trans hi)
  have hmid : r'.mid = midAt remote i := hrow.mid_eq
  refine ⟨n, List.mem_of_getElem? hn, ?_⟩
  rcases run.row_cases hrow with ⟨harej, -⟩ | ⟨e, -, -, -, -, hnmid, -, hacc⟩
  · obtain ⟨ssrcs, e, hwritten⟩ := hrow.written
    rw [hwritten, Section.isRejected, port_decorate] at harej
    exact absurd (hrej.symm.trans harej) Bool.false_ne_true
  · exact ⟨hnmid.trans hmid.symm, hacc⟩

theorem kind_outcome (run : Answering s remote) {i : Nat} {n : NegotiatedMedia} {m : Section}
    (hn : run.outcomes.1[i]? = some n) (hm : remote.sections[i]? = some m) : n.kind = m.kind := by
  obtain ⟨q, r, o, a, ho, -, hrow⟩ := run.exists_row hn
  rw [hm, Option.some_inj] at ho
  subst ho
  have hkind := (hrow.inPlace hm).kind_eq
  have hsettled := hrow.settled
  rw [outcome] at hsettled
  split at hsettled
  · rw [hsettled]
    rfl
  · rw [hsettled]
    exact hkind

/-- What is carried when everything is placed was carried there before, or it belongs to an accepted
section, which is there. -/
theorem origin_of_carrier? {s : Session} (run : Answering s.receiving remote)
    (hs : s.transport.Exclusive) {ports : PortAllocator}
    (hplace : Placement.placeAll s.config.portRange (remote.session.bundle?.getD []).contains
      (run.plan.zip (remote.sections.map fun m ↦ fun _ ↦ Section.rejected m))
      { transport := s.transport, ports := ports } = (.ok run.placed, run.place))
    {mid : Mid} {id : EndpointId} (hcarrier : run.place.transport.carrier? mid = some id) :
    s.transport.carrier? mid = some id ∨
      ∃ n ∈ run.outcomes.1, n.mid = mid ∧ n.endpoint = some id := by
  have hcarried := TransportBinding.carried_iff.mpr (hcarrier ▸ Option.some_ne_none id)
  rcases Placement.carried_placeAll (Placement.ready_start hs ports) hplace hcarried with
    hbefore | ⟨r, hr, hmid, hrej⟩
  · obtain ⟨id', hid'⟩ := Option.ne_none_iff_exists'.mp (TransportBinding.carried_iff.mp hbefore)
    have hkept := run.keeps.carrier? run.ready.exclusive trivial hid'
    rw [hcarrier] at hkept
    exact .inl (hid'.trans hkept.symm)
  · obtain ⟨n, hn, hnmid, hacc⟩ := run.exists_outcome_of_placed hr hrej
    refine .inr ⟨n, hn, hnmid.trans hmid, ?_⟩
    cases hend : n.endpoint with
    | none =>
      have hrejected := (run.endpoint_eq_none_iff hn).mp hend
      exact absurd (hacc.symm.trans hrejected) Bool.false_ne_true
    | some id' =>
      have hnow := run.carrier?_of_endpoint hn hend
      rw [hnmid, hmid, hcarrier] at hnow
      exact hnow.symm

/-- **Answering an offer** concludes with the answer. -/
theorem concludes {s : Session} (run : Answering s.receiving remote) (hs : s.Sound)
    (hopen : s.state ≠ .closed) {ports : PortAllocator}
    (hplace : Placement.placeAll s.config.portRange (remote.session.bundle?.getD []).contains
      (run.plan.zip (remote.sections.map fun m ↦ fun _ ↦ Section.rejected m))
      { transport := s.transport, ports := ports } = (.ok run.placed, run.place)) :
    Concludes s run.secured run.concluded.1 remote run.answer := by
  have hnegotiated := run.negotiated_concluded
  have houtline := run.outline_secured
  refine ⟨hopen, run.ready.exclusive.congr houtline, run.keeps.trans (.of_outline houtline),
    ?_, ?_, ?_, ?_, ?_, ?_, run.length_sections, ?_, ?_, ?_, ?_⟩
  · intro mid id hcarrier
    rw [TransportBinding.carrier?_congr houtline] at hcarrier
    rw [hnegotiated]
    exact run.origin_of_carrier? hs.exclusive hplace hcarrier
  · obtain ⟨_, _, _, hwritten⟩ := run.written_eq
    rw [secured, hwritten]
    rfl
  · intro id
    rw [secured, demuxOf_setChannels, run.transport_written]
    exact Placement.demuxOf_placeAll hplace id
  · intro mid v hv
    exact ((decorateAll_again run.start run.decorated).2 mid).ssrc?_eq v hv
  · intro mid v hv
    rw [hnegotiated]
    have hv' : (run.start.decorateAll run.decorated).2.ssrc? mid = some v := hv
    rcases ssrc?_decorateAll hv' with hold | ⟨q, hq, hmid, hrej⟩
    · exact .inl hold
    · obtain ⟨n, hn, hnmid, hacc⟩ := run.exists_outcome_of_placed (List.of_mem_zip hq).1 hrej
      exact .inr ⟨n, hn, hnmid.trans hmid, hacc⟩
  · rw [hnegotiated, run.length_negotiated]
  · rw [hnegotiated]
    exact fun n hn ↦ run.endpoint_eq_none_iff hn
  · rw [hnegotiated]
    intro n hn id hid
    rw [TransportBinding.carrier?_congr houtline]
    exact run.carrier?_of_endpoint hn hid
  · rw [hnegotiated]
    exact fun i n m hn hm ↦ run.kind_outcome hn hm
  · -- what follows the commit is the record and settling, and neither moves anything
    refine ⟨run.place.ports, run.placed.map Planned.handler, ?_⟩
    rw [hnegotiated, concluded, concludeAnswer]
    dsimp only
    obtain ⟨state, -, hsettle⟩ := settle_eq { (run.secured.commit run.place.ports remote run.answer
      run.outcomes.1 (run.placed.map Planned.handler)).1 with
      ours := some run.answer
      theirs := some remote
      settled := .answerGenerated
      state := .answerGenerated }
    rw [hsettle]
    exact ⟨rfl, rfl, rfl⟩

end Answering

/-! ## Applying an answer -/

namespace Session

theorem kind_of_checkPairs {i : Nat} {pairs : List (Section × Section)}
    (h : checkPairs i pairs = .ok ()) : ∀ p ∈ pairs, p.1.kind = p.2.kind := by
  induction pairs generalizing i with
  | nil => exact fun p hp ↦ absurd hp List.not_mem_nil
  | cons p pairs ih =>
    rw [checkPairs] at h
    split at h
    · cases h
    · rename_i hkind
      have hrest : checkPairs (i + 1) pairs = .ok () := by
        split at h
        · split at h
          · exact h
          · cases h
        · exact h
      intro p' hp'
      rcases List.mem_cons.mp hp' with rfl | hp'
      · exact not_not.mp hkind
      · exact ih hrest p' hp'

theorem kind_of_checkAnswer {s : Session} {offer answer : Description}
    (h : s.checkAnswer offer answer = .ok ()) :
    ∀ p ∈ offer.sections.zip answer.sections, p.1.kind = p.2.kind := by
  have hlen := length_of_checkAnswer h
  rw [checkAnswer] at h
  cases hconsistent : checkConsistent answer with
  | error e =>
    rw [hconsistent] at h
    cases h
  | ok _ =>
    rw [hconsistent] at h
    change (if _ then _ else _) = _ at h
    rw [if_neg (not_not.mpr hlen)] at h
    cases hpairs : checkPairs 0 (offer.sections.zip answer.sections) with
    | error e =>
      rw [hpairs] at h
      cases h
    | ok _ => exact kind_of_checkPairs hpairs

end Session

namespace Accepting

open Session

variable {s : Session} {pending : PendingOffer} {answer : Description}

theorem kind_outcome (run : Accepting s pending answer) {i : Nat} {n : NegotiatedMedia}
    {m : Section} (hn : run.outcomes.1[i]? = some n) (hm : answer.sections[i]? = some m) :
    n.kind = m.kind := by
  obtain ⟨p, x, hp, hsettle⟩ := (settleSections_spec run.settle_eq).2.1 i n hn
  have hkind : p.1.kind = p.2.kind :=
    kind_of_checkAnswer run.checked p (List.mem_of_getElem? hp)
  have hanswered := (List.getElem?_zip_eq_some.mp hp).2
  rw [hm, Option.some_inj] at hanswered
  rw [hanswered, ← hkind]
  rcases settleSection_cases hsettle with ⟨rfl, -⟩ | ⟨id, codec, setup, -, -, rfl, -⟩
  · rfl
  · rfl

/-- **Applying an answer** concludes with that answer. -/
theorem concludes {s : Session} (run : Accepting s.accepting pending answer) (hs : s.Sound)
    (hopen : s.state ≠ .closed) (ports : PortAllocator) :
    Concludes s run.secured (run.concluded ports).1 answer answer := by
  have hnegotiated := run.negotiated_concluded hs.exclusive ports
  have houtline : run.secured.transport.outline = s.transport.outline := run.outline_secured
  refine ⟨hopen, hs.exclusive.congr houtline, .of_outline houtline, ?_, rfl,
    fun id ↦ demuxOf_setChannels s.transport run.channels, fun _ _ h ↦ h, fun _ _ h ↦ .inl h,
    ?_, rfl, ?_, ?_, ?_, ?_⟩
  · intro mid id hcarrier
    rw [TransportBinding.carrier?_congr houtline] at hcarrier
    exact .inl hcarrier
  · rw [hnegotiated, run.length_outcomes, length_of_checkAnswer run.checked]
  · rw [hnegotiated]
    intro n hn
    rcases run.outcome_cases hn with ⟨hnone, hrej⟩ | ⟨id, hid, hrej, -⟩
    · rw [hnone, hrej]
      exact ⟨fun _ ↦ rfl, fun _ ↦ rfl⟩
    · rw [hid, hrej]
      exact ⟨nofun, nofun⟩
  · rw [hnegotiated]
    intro n hn id hid
    rw [TransportBinding.carrier?_congr houtline]
    rcases run.outcome_cases hn with ⟨hnone, -⟩ | ⟨id', hid', -, hcarrier⟩
    · cases hnone.symm.trans hid
    · cases hid'.symm.trans hid
      exact hcarrier
  · rw [hnegotiated]
    exact fun i n m hn hm ↦ run.kind_outcome hn hm
  · -- what follows the commit is the record and settling, and neither moves anything
    refine ⟨ports, pending.handlers, ?_⟩
    rw [hnegotiated, concluded, concludeAccept]
    dsimp only
    obtain ⟨state, -, hsettle⟩ := Session.settle_eq { (run.secured.commit ports answer answer
      run.outcomes.1 pending.handlers).1 with
      theirs := some answer
      settled := .answerProcessed
      state := .answerProcessed }
    rw [hsettle]
    exact ⟨rfl, rfl, rfl⟩

end Accepting

/-! ## The operations -/

namespace Session

variable {s : Session} {ports : PortAllocator}

theorem concludes_processOffer (hs : s.Sound) {remote answer : Description}
    (h : (s.processOffer ports remote).result = .ok answer) :
    ∃ base, Concludes s base (s.processOffer ports remote).session remote answer := by
  obtain ⟨htakes, -, run, hr, hplace⟩ := processOffer_placed hs h
  rw [hr] at h ⊢
  cases h
  exact ⟨run.secured, run.concludes hs (takesOffer_ne_closed htakes) hplace⟩

theorem concludes_processAnswer (hs : s.Sound) {answer : Description}
    (h : (s.processAnswer ports answer).result = .ok ()) :
    ∃ base, Concludes s base (s.processAnswer ports answer).session answer answer := by
  rcases processAnswer_cases hs.hasPem ports answer with ⟨e, hr⟩ | ⟨hstate, pending, -, run, hr⟩
  · rw [hr] at h
    cases h
  · rw [hr]
    exact ⟨run.secured, run.concludes hs (hstate ▸ NegotiationState.noConfusion) ports⟩

end Session

end OfferAnswer
