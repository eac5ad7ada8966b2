import OfferAnswer.Proofs.Session.Bundling
import OfferAnswer.Proofs.Session.Exhaustion
import OfferAnswer.Proofs.Session.Versions

/-!
# Sections keep their places

A section is found by its index on both sides, so once it is negotiated its identifier has to stay
at that index for the life of the session. Three mechanisms share the work: offers repeat the
outcome before anything else, remote offers are compared with it, and answers are read against the
offer that is pending. Each of them alone only looks one exchange back.

What one step keeps is `KeepsPlaces`: the identifiers of the outcome are extended, and a description
that is emitted lists them first. Extending is transitive, so a run keeps what all its steps keep.

An offer that is pending was written before the answer to it arrives, and it is the outcome of that
time that it repeats. `Seated` says that it is still the outcome of now; nothing else is needed of
the past.
-/

namespace OfferAnswer

/-- Whether a description lists sections of some identifiers first, in order. -/
def Description.Lists (d : Description) (mids : List Mid) : Prop :=
  mids.map some <+: d.sections.map Section.mid?

theorem Description.Lists.mono {d : Description} {mids mids' : List Mid} (h : d.Lists mids')
    (hextends : mids <+: mids') : d.Lists mids :=
  (hextends.map some).trans h

theorem prefix_of_getElem? {α : Type} {xs ys : List α}
    (h : ∀ (i : Nat) x, xs[i]? = some x → ys[i]? = some x) : xs <+: ys :=
  List.prefix_iff_getElem?.mpr fun i hi ↦ h i xs[i] (List.getElem?_eq_getElem hi)

theorem getElem?_of_isPrefix {α : Type} {xs ys : List α} (h : xs <+: ys) {i : Nat} {x : α}
    (hx : xs[i]? = some x) : ys[i]? = some x := by
  obtain ⟨more, rfl⟩ := h
  rwa [List.getElem?_append_left (List.getElem?_eq_some_iff.mp hx).1]

namespace Session

variable {s s' : Session} {ports : PortAllocator}

/-- The identifiers of the negotiated sections. -/
def mids (s : Session) : List Mid := s.negotiated.map (·.mid)

theorem getElem?_mids {i : Nat} {mid : Mid} :
    s.mids[i]? = some mid ↔ ∃ n, s.negotiated[i]? = some n ∧ n.mid = mid := by
  rw [mids, List.getElem?_map, Option.map_eq_some_iff]

/-! ## One step -/

/-- What one step keeps of the sections: the outcome is extended, and what is emitted lists the
sections of it first. -/
structure KeepsPlaces (s : Session) (emitted : Option Description) (s' : Session) : Prop where
  /-- Sections are only appended to the outcome. -/
  extend : s.mids <+: s'.mids
  /-- A description lists the outcome that it leaves. -/
  lists : ∀ d, emitted = some d → d.Lists s'.mids

/-- A pending offer lists the sections of the outcome first. -/
def Seated (s : Session) : Prop := ∀ p, s.pending = some p → p.offer.Lists s.mids

theorem keepsPlaces_of_negotiated (h : s'.negotiated = s.negotiated) : KeepsPlaces s none s' where
  extend := by
    have hmids : s'.mids = s.mids := by rw [mids, mids, h]
    exact hmids ▸ List.prefix_refl _
  lists _ hd := absurd hd nofun

/-- An offer repeats the outcome, and new sections come after it. -/
theorem lists_offer (run : Offering s) (hlegible : ∀ n ∈ s.negotiated, n.mid.Legible) :
    run.offer.Lists s.mids := by
  obtain ⟨repeats, added, hrepeats, -, hplan⟩ := planOffer_spec run.plan_eq
  have hmids : run.plan.map (·.mid) = s.mids ++ added.map (·.mid) := by
    rw [hplan, List.map_map, mids, ← planRepeated_mids hrepeats, ← List.map_append]
    exact List.map_congr_left fun q _ ↦ mid_offerMux s q
  have hsections : run.offer.sections.map Section.mid? = (run.plan.map (·.mid)).map some := by
    rw [run.mids_sections hlegible, List.map_map]
    rfl
  rw [Description.Lists, hsections, hmids, List.map_append]
  exact List.prefix_append _ _

theorem keepsPlaces_generateOffer (hexcl : s.transport.Exclusive)
    (hlegible : ∀ n ∈ s.negotiated, n.mid.Legible) (ports : PortAllocator) :
    KeepsPlaces s (s.generateOffer ports).result.toOption (s.generateOffer ports).session := by
  rcases generateOffer_cases hexcl ports with ⟨e, hr⟩ | ⟨-, run, hr⟩
  · rw [hr]
    exact keepsPlaces_of_negotiated rfl
  · obtain ⟨_, _, _, hwritten⟩ := run.written_eq
    have hmids : run.written.2.mids = s.mids := by rw [hwritten, mids, mids]
    rw [hr]
    refine ⟨hmids ▸ List.prefix_refl _, fun d hd ↦ ?_⟩
    cases hd
    exact hmids ▸ lists_offer run hlegible

/-- An answer has the sections of the outcome that it leaves, and those begin with the outcome
before. -/
theorem keepsPlaces_processOffer (hs : s.Sound) (ports : PortAllocator) (remote : Description) :
    KeepsPlaces s (s.processOffer ports remote).result.toOption
      (s.processOffer ports remote).session := by
  rcases processOffer_cases hs.exclusive hs.hasPem hs.answerSetup_ne ports remote with
    ⟨e, hr⟩ | ⟨-, hcheck, run, hr⟩
  · rw [hr]
    exact keepsPlaces_of_negotiated rfl
  rw [hr]
  have hafter : run.concluded.1.mids = run.outcomes.1.map (·.mid) := by
    rw [mids, run.negotiated_concluded]
  constructor
  · refine prefix_of_getElem? fun i mid hmid ↦ ?_
    obtain ⟨n, hn, rfl⟩ := getElem?_mids.mp hmid
    have hlt : i < run.outcomes.1.length := by
      rw [run.length_negotiated]
      exact Nat.lt_of_lt_of_le (List.getElem?_eq_some_iff.mp hn).1
        (checkOffer_eq_ok.mp hcheck).2.2.1
    have hn' := List.getElem?_eq_getElem hlt
    rw [hafter, List.getElem?_map, hn', Option.map_some, run.mid_outcome hn',
      midAt_of_checkOffer (s := s.receiving) hcheck hn]
  · intro d hd
    cases hd
    refine prefix_of_getElem? fun i mid hmid ↦ ?_
    rw [hafter, List.map_map] at hmid
    obtain ⟨n, hn, rfl⟩ := Option.map_eq_some_iff.mp (List.getElem?_map.symm.trans hmid)
    obtain ⟨q, r, o, a, -, ha, hrow⟩ := run.exists_row hn
    rw [List.getElem?_map, ha, Option.map_some, hrow.mid?_eq, ← run.mid_outcome hn]
    rfl

theorem keepsPlaces_processAnswer (hs : s.Sound) (hseated : s.Seated) (ports : PortAllocator)
    (answer : Description) : KeepsPlaces s none (s.processAnswer ports answer).session := by
  rcases processAnswer_cases hs.hasPem ports answer with ⟨e, hr⟩ | ⟨-, p, hp, run, hr⟩
  · rw [hr]
    exact keepsPlaces_of_negotiated rfl
  rw [hr]
  have hafter : (run.concluded ports).1.mids = run.outcomes.1.map (·.mid) := by
    rw [mids, run.negotiated_concluded hs.exclusive]
  refine ⟨prefix_of_getElem? fun i mid hmid ↦ ?_, fun _ hd ↦ absurd hd nofun⟩
  -- the section was listed by the offer
  have hmid' : (s.mids.map some)[i]? = some (some mid) := by
    rw [List.getElem?_map, hmid]
    rfl
  have hlisted := getElem?_of_isPrefix (hseated p hp) hmid'
  obtain ⟨o, ho, homid⟩ := Option.map_eq_some_iff.mp (List.getElem?_map.symm.trans hlisted)
  have hlt : i < run.outcomes.1.length := by
    rw [run.length_outcomes]
    exact (List.getElem?_eq_some_iff.mp ho).1
  have hn := List.getElem?_eq_getElem hlt
  obtain ⟨o', ho', hname⟩ := run.mid_outcome hn
  obtain rfl : o = o' := Option.some_inj.mp (ho.symm.trans ho')
  rw [hafter, List.getElem?_map, hn, Option.map_some, hname, offeredMid, homid, Option.getD_some]

theorem keepsPlaces_close (s : Session) (ports : PortAllocator) :
    KeepsPlaces s none (s.close ports).session := by
  rw [close]
  split
  · exact keepsPlaces_of_negotiated rfl
  · refine ⟨?_, fun _ hd ↦ by cases hd⟩
    have hmids : (s.negotiated.map fun n ↦ { n with endpoint := none }).map (·.mid) = s.mids :=
      List.map_map
    exact hmids ▸ List.prefix_refl _

/-! ## Pending offers -/

theorem Seated.generateOffer (h : s.Seated) (hexcl : s.transport.Exclusive)
    (hlegible : ∀ n ∈ s.negotiated, n.mid.Legible) (ports : PortAllocator) :
    (s.generateOffer ports).session.Seated := by
  rcases generateOffer_cases hexcl ports with ⟨e, hr⟩ | ⟨-, run, hr⟩
  · rw [hr]
    exact h
  · obtain ⟨_, _, _, hwritten⟩ := run.written_eq
    rw [hr, hwritten]
    intro p hp
    cases hp
    exact lists_offer run hlegible

theorem seated_of_exchanged {p : Placement} {ports' : PortAllocator}
    (h : Exchanged s ports p s' ports') : s'.Seated := by
  intro p hp
  rw [h.pending_eq] at hp
  cases hp

theorem Seated.call (h : s.Seated) (hs : s.Reachable) (ports : PortAllocator) (c : SessionCall) :
    (s.call ports c).session.Seated := by
  -- between exchanges offer and outcome stay as they are
  by_cases hbetween : c.isBetween = true
  · have hsame := (sameExchange_call s ports hbetween).1
    rw [Seated, hsame.pending_eq, mids, hsame.negotiated_eq]
    exact h
  cases c with
  | offer => exact h.generateOffer hs.sound.exclusive hs.mentioned.legible ports
  | answer remote =>
    cases hr : (s.processOffer ports remote).result with
    | ok answer =>
      obtain ⟨_, hexchanged⟩ := hs.mentioned.answered hs.sound hs.ordered hr
      exact seated_of_exchanged hexchanged
    | error e =>
      rcases processOffer_cases hs.sound.exclusive hs.sound.hasPem hs.sound.answerSetup_ne ports
        remote with ⟨e, hr'⟩ | ⟨-, -, run, hr'⟩
      · change (s.processOffer ports remote).session.Seated
        rw [hr']
        exact h
      · rw [hr'] at hr
        cases hr
  | accept answer =>
    cases hr : (s.processAnswer ports answer).result with
    | ok _ =>
      obtain ⟨_, hexchanged⟩ := hs.mentioned.accepted hs.sound hr
      exact seated_of_exchanged hexchanged
    | error e =>
      rcases processAnswer_cases hs.sound.hasPem ports answer with ⟨e, hr'⟩ | ⟨-, p, -, run, hr'⟩
      · change (s.processAnswer ports answer).session.Seated
        rw [hr']
        exact h
      · rw [hr'] at hr
        cases hr
  | close =>
    change (s.close ports).session.Seated
    rw [Session.close]
    split
    · exact h
    · exact fun p hp ↦ by cases hp
  | _ => exact absurd rfl hbetween

theorem Reachable.seated (h : s.Reachable) : s.Seated := by
  induction h with
  | build hbuild =>
    obtain ⟨handlers, -, rfl⟩ := build_eq hbuild
    exact fun _ hp ↦ absurd hp nofun
  | call ports c hs ih => exact ih.call hs ports c
  | rtcp buffer _ ih => exact ih

/-! ## Kinds -/

theorem kind_of_generateOffer (hs : s.Reachable) {offer : Description}
    (h : (s.generateOffer ports).result = .ok offer) {i : Nat} {n : NegotiatedMedia}
    (hn : s.negotiated[i]? = some n) (hrej : n.rejected = false) :
    ∃ o, offer.sections[i]? = some o ∧ o.kind = n.kind := by
  obtain ⟨run, hr, -⟩ := generateOffer_placed hs.sound.exclusive h
  rw [hr] at h
  cases h
  have hlt : i < run.offer.sections.length := by
    rw [run.length_sections]
    exact Nat.lt_of_lt_of_le (List.getElem?_eq_some_iff.mp hn).1
      (length_le_of_planOffer run.plan_eq)
  have ho := List.getElem?_eq_getElem hlt
  obtain ⟨q, r, hrow⟩ := run.exists_row ho
  refine ⟨_, ho, hrow.kind_eq.trans ?_⟩
  -- what was planned for it is what its handler offers
  obtain ⟨q₀, hdraft, rfl⟩ := drafted_of_planOffer run.plan_eq hrow.planned
  rw [kind_offerMux]
  cases hdraft with
  | @repeated n' m hn' hm =>
    obtain rfl : n = n' := Option.some_inj.mp (hn.symm.trans hn')
    obtain ⟨m', hm', hmrej⟩ := hs.staffed.repeated_ok hs.sound hn
    obtain rfl : m' = m := Except.ok.inj (hm'.symm.trans hm)
    exact (handles_of_repeated hm (hmrej.trans hrej)).2
  | added _ hi _ _ =>
    exact absurd (List.getElem?_eq_some_iff.mp hn).1 (Nat.not_lt_of_le hi)

/-! ## Runs -/

theorem keepsPlaces_silent (hs : s.Reachable) (ports : PortAllocator) {c : SessionCall}
    (hoffer : c ≠ .offer) (hanswer : ∀ remote, c ≠ .answer remote) :
    KeepsPlaces s none (s.call ports c).session := by
  by_cases hbetween : c.isBetween = true
  · exact keepsPlaces_of_negotiated (sameExchange_call s ports hbetween).1.negotiated_eq
  cases c with
  | offer => exact absurd rfl hoffer
  | answer remote => exact absurd rfl (hanswer remote)
  | accept answer => exact keepsPlaces_processAnswer hs.sound hs.seated ports answer
  | close => exact keepsPlaces_close s ports
  | _ => exact absurd rfl hbetween

/-- **One step of a run** keeps the sections in their places. -/
theorem keepsPlaces_advance {x : Session × PortAllocator} (hs : x.1.Reachable) (i : Input) :
    KeepsPlaces x.1 (emitted? (advance x i).1) (advance x i).2.1 := by
  obtain ⟨s, ports⟩ := x
  cases i with
  | rtcp buffer => exact keepsPlaces_of_negotiated rfl
  | others ports => exact keepsPlaces_of_negotiated rfl
  | call c =>
    by_cases hoffer : c = .offer
    · subst hoffer
      exact emitted?_description _ ▸
        keepsPlaces_generateOffer hs.sound.exclusive hs.mentioned.legible ports
    by_cases hanswer : ∃ remote, c = .answer remote
    · obtain ⟨remote, rfl⟩ := hanswer
      exact emitted?_description _ ▸ keepsPlaces_processOffer hs.sound ports remote
    · have hquiet : ∀ remote, c ≠ .answer remote := fun remote h ↦ hanswer ⟨remote, h⟩
      dsimp only [advance]
      rw [emitted?_call s ports hoffer hquiet]
      exact keepsPlaces_silent hs ports hoffer hquiet

/-- Whether a moment in which an offer is made repeats accepted sections with their kinds. -/
def RepeatsKinds (m : Moment (Session × PortAllocator) Input Output) : Prop :=
  m.input = .call .offer → ∀ d, emitted? m.answer = some d → ∀ (i : Nat) n,
    m.before.1.negotiated[i]? = some n → n.rejected = false →
      ∃ o, d.sections[i]? = some o ∧ o.kind = n.kind

/-- What a run leaves behind begins with the outcome that it started from, and so does what it
emits. -/
theorem places_of_mem_trace {x : Session × PortAllocator} (hs : x.1.Reachable) {is : List Input} :
    ∀ m ∈ Moment.trace advance x is, x.1.mids <+: m.after.1.mids ∧
      (∀ d, emitted? m.answer = some d → d.Lists m.after.1.mids) ∧ RepeatsKinds m := by
  induction is generalizing x with
  | nil => exact fun m hm ↦ absurd hm List.not_mem_nil
  | cons i is ih =>
    have hstep := keepsPlaces_advance hs i
    intro m hm
    rcases List.mem_cons.mp hm with rfl | hm
    · refine ⟨hstep.extend, hstep.lists, fun hinput d hd j n hn hrej ↦ ?_⟩
      obtain rfl : i = .call .offer := hinput
      have hresult : (x.1.generateOffer x.2).result = .ok d := by
        dsimp only [advance, call, Reply.map] at hd
        rw [emitted?_description] at hd
        cases hr : (x.1.generateOffer x.2).result with
        | ok d' =>
          rw [hr] at hd
          exact congrArg Except.ok (Option.some_inj.mp hd)
        | error e =>
          rw [hr] at hd
          cases hd
      exact kind_of_generateOffer hs hresult hn hrej
    · obtain ⟨hextend, hrest⟩ := ih (reachable_advance hs i) m hm
      exact ⟨hstep.extend.trans hextend, hrest⟩

/-- Whatever comes later in a run extends the outcomes before it, and lists them. -/
theorem pairwise_trace {x : Session × PortAllocator} (hs : x.1.Reachable) (is : List Input) :
    (Moment.trace advance x is).Pairwise fun m m' ↦ m.after.1.mids <+: m'.after.1.mids ∧
      ∀ d, emitted? m'.answer = some d → d.Lists m.after.1.mids := by
  induction is generalizing x with
  | nil => exact .nil
  | cons i is ih =>
    have hnext := reachable_advance hs i
    refine .cons (fun m hm ↦ ?_) (ih hnext)
    obtain ⟨hextend, hlists, -⟩ := places_of_mem_trace hnext m hm
    exact ⟨hextend, fun d hd ↦ (hlists d hd).mono hextend⟩

/-- **Sections keep their places.** In any run of a session that was built, whatever fails and
whoever offers: the identifiers of an outcome are the first ones of every later outcome, and every
description that is emitted lists the identifiers of all outcomes up to then first, in their places,
its own included. So sections are only ever appended. And an offer repeats every accepted section
with its kind. -/
theorem sections_keep_their_places {config : SessionConfig} {e : Entropy}
    (h : build config e = .ok s) (ports : PortAllocator) (is : List Input) :
    let run := Moment.trace advance (s, ports) is
    run.Pairwise (fun m m' ↦ m.after.1.mids <+: m'.after.1.mids ∧
        ∀ d, emitted? m'.answer = some d → d.Lists m.after.1.mids) ∧
      ∀ m ∈ run, (∀ d, emitted? m.answer = some d → d.Lists m.after.1.mids) ∧ RepeatsKinds m := by
  intro run
  have hs : s.Reachable := .build h
  exact ⟨pairwise_trace (x := (s, ports)) hs is,
    fun m hm ↦ (places_of_mem_trace (x := (s, ports)) hs m hm).2⟩

/-- The peer offers a channel, we offer audio beside it, and the peer rejects that. -/
def appending : List Input :=
  [.call (.answer (channelAt 9)), .call .offer,
    .call (.accept { channelAt 9 with
      sections := (channelAt 9).sections ++ [{ kind := .audio, port := 0, proto := "RTP/AVP" }] })]

theorem sections_keep_their_places_appending :
    let s := ofNarrow ⟨fun i ↦ i, 0⟩
    let run := Moment.trace advance (s, {}) appending
    build narrow ⟨fun i ↦ i, 0⟩ = .ok s ∧
      (run.Pairwise (fun m m' ↦ m.after.1.mids <+: m'.after.1.mids ∧
          ∀ d, emitted? m'.answer = some d → d.Lists m.after.1.mids) ∧
        ∀ m ∈ run, (∀ d, emitted? m.answer = some d → d.Lists m.after.1.mids) ∧
          RepeatsKinds m) ∧
      run.map (·.after.1.mids.length) = [1, 1, 2] ∧
      (run.filterMap fun m ↦ emitted? m.answer).map (·.sections.length) = [1, 2] := by
  intro s run
  have hbuild : build narrow ⟨fun i ↦ i, 0⟩ = .ok s := rfl
  exact ⟨hbuild, sections_keep_their_places hbuild {} appending, by decide +kernel,
    by decide +kernel⟩

end Session

end OfferAnswer
