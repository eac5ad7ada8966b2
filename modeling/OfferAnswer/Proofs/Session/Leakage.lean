import Mathlib.Data.List.Pairwise
import OfferAnswer.Proofs.Session.Books
import OfferAnswer.Proofs.Session.Carriage
import OfferAnswer.Proofs.Session.Naming
import OfferAnswer.Proofs.Session.Phases

/-!
# No transport leaks

An endpoint is taken when its first section is placed, and given up by the identifiers of the
sections that an exchange rejects. An identifier that no outcome mentions would never be given up,
and its ports would be lost.

## The invariant

`Session.Mentioned` says that there is no such identifier. Whatever is carried is negotiated, or it
is in the offer that awaits its answer. The answer then has an outcome for every section of that
offer, and a remote offer has to repeat every negotiated section, so each exchange mentions all that
is carried.

An offer may be made again before it is answered, and only the last one is remembered. That the
names of an offer do not depend on when it is made is what carries the invariant over; it holds as
long as indices suffice to name the sections with (`Session.NamesSuffice`). A machine cannot hold
more.

## Both exchanges at once

An exchange places sections, secures endpoints and commits an outcome. `Exchanged` is what the two
ways of it, answering an offer and applying an answer, have in common, seen from the placement after
which nothing but the commit takes or gives up an endpoint. Applying an answer places nothing.
-/

namespace OfferAnswer

open PortAllocator (Accounts)
open TransportBinding (Keeps)

theorem TransportBinding.eq_of_mem_ports {b : TransportBinding} (h : b.heldPorts.Nodup)
    {e e' : Endpoint} (he : e ∈ b.endpoints) (he' : e' ∈ b.endpoints) {p : UInt16}
    (hp : p ∈ e.ports) (hp' : p ∈ e'.ports) : e = e' := by
  by_contra hne
  have hdisjoint : Std.Symm (Function.onFun List.Disjoint Endpoint.ports) :=
    ⟨fun _ _ h ↦ List.disjoint_symm h⟩
  exact (List.nodup_flatMap.mp h).2.forall he he' hne hp hp'

/-! ## Exchanges -/

namespace Session

variable {s s' : Session} {p : Placement} {ports ports' : PortAllocator} {others : List UInt16}

/-- An exchange that has succeeded, by way of the placement `p` before its commit. -/
structure Exchanged (s : Session) (ports : PortAllocator) (p : Placement) (s' : Session)
    (ports' : PortAllocator) : Prop where
  /-- Lookups are reliable before the commit. -/
  exclusive : p.transport.Exclusive
  /-- Placing moves nothing that was carried. -/
  keeps : Keeps (fun _ ↦ True) s.transport p.transport
  /-- Ports are taken for new endpoints. -/
  taken : ∀ others, Accounts ports (s.transport.heldPorts ++ others) →
    Accounts p.ports (p.transport.heldPorts ++ others)
  /-- Ports are returned with the endpoints that are given up. -/
  returned : ∀ others, Accounts p.ports (p.transport.heldPorts ++ others) →
    Accounts ports' (s'.transport.heldPorts ++ others)
  /-- The commit gives up only. -/
  carried : ∀ mid, s'.transport.Carried mid → p.transport.Carried mid
  /-- It keeps what it does not reject. -/
  kept : Keeps (fun mid ↦ ¬Released s'.negotiated mid) p.transport s'.transport
  /-- It gives up what it rejects. -/
  released : ∀ mid, Released s'.negotiated mid → s'.transport.carrier? mid = none
  /-- The handlers stay. -/
  handlers_eq : s'.handlers = s.handlers
  /-- No offer is pending any more. -/
  pending_eq : s'.pending = none
  /-- The session is not closed. -/
  not_closed : s'.state ≠ .closed
  /-- Sections stay, and others are added. -/
  length_le : s.negotiated.length ≤ s'.negotiated.length
  /-- The names of the outcome can be written down and read back. -/
  legible : ∀ n ∈ s'.negotiated, n.mid.Legible
  /-- It has an outcome for all that is left. -/
  mentioned : s.NamesSuffice → ∀ mid, s'.transport.Carried mid → mid ∈ s'.negotiated.map (·.mid)

theorem Exchanged.not_released (h : Exchanged s ports p s' ports') {e : Endpoint}
    (he : e ∈ s'.transport.endpoints) {mid : Mid} (hmid : mid ∈ e.mids) :
    ¬Released s'.negotiated mid := fun hr ↦
  TransportBinding.carrier?_eq_none_iff.mp (h.released mid hr) e he hmid

/-- An endpoint that is left is one that was there, with its ports. -/
theorem Exchanged.origin (h : Exchanged s ports p s' ports') (hs' : s'.transport.Exclusive)
    {e' : Endpoint} (he' : e' ∈ s'.transport.endpoints) :
    ∃ e ∈ p.transport.endpoints, e.id = e'.id ∧ e.ports = e'.ports := by
  obtain ⟨mid, hmid⟩ := List.exists_mem_of_ne_nil _ (hs'.mids_ne_nil e' he')
  obtain ⟨e, he, hmid₀⟩ := h.carried mid ⟨e', he', hmid⟩
  obtain ⟨e₁, he₁, hid, hrtp, hrtcp, hmid₁⟩ := h.kept e he mid hmid₀ (h.not_released he' hmid)
  -- one endpoint carries it in the end, so the two are the same
  obtain rfl : e₁ = e' :=
    hs'.toWellFormed.eq_of_id he₁ he' (hs'.carrier_unique e₁ he₁ e' he' mid hmid₁ hmid)
  refine ⟨e, he, hid.symm, ?_⟩
  rw [Endpoint.ports, Endpoint.ports, hrtp, hrtcp]

/-- An endpoint that was there is left with its ports, or its ports are free. -/
theorem Exchanged.left_or_free (h : Exchanged s ports p s' ports')
    (hs : s.transport.Exclusive) (hs' : s'.transport.Exclusive)
    (hacc : Accounts ports (s.transport.heldPorts ++ others)) {e : Endpoint}
    (he : e ∈ s.transport.endpoints) :
    (∃ e' ∈ s'.transport.endpoints, e'.id = e.id ∧ e'.ports = e.ports) ∨
      ∀ p ∈ e.ports, p ∉ ports'.used := by
  have hplaced := h.taken others hacc
  have hleft := h.returned others hplaced
  -- the endpoint has the same ports right before the commit
  obtain ⟨e₁, he₁, hid₁, hports₁⟩ : ∃ e₁ ∈ p.transport.endpoints, e₁.id = e.id ∧
      e₁.ports = e.ports := by
    obtain ⟨mid, hmid⟩ := List.exists_mem_of_ne_nil _ (hs.mids_ne_nil e he)
    obtain ⟨e₁, he₁, hid, hrtp, hrtcp, -⟩ := h.keeps e he mid hmid trivial
    refine ⟨e₁, he₁, hid, ?_⟩
    rw [Endpoint.ports, Endpoint.ports, hrtp, hrtcp]
  by_cases halive : ∃ e' ∈ s'.transport.endpoints, e'.id = e.id
  · obtain ⟨e', he', hid'⟩ := halive
    obtain ⟨e₂, he₂, hid₂, hports₂⟩ := h.origin hs' he'
    obtain rfl : e₂ = e₁ := h.exclusive.toWellFormed.eq_of_id he₂ he₁
      (hid₂.trans (hid'.trans hid₁.symm))
    exact .inl ⟨e', he', hid', hports₂.symm.trans hports₁⟩
  · refine .inr fun port hp hused ↦ ?_
    have hp₁ : port ∈ p.transport.heldPorts := List.mem_flatMap.mpr ⟨e₁, he₁, hports₁ ▸ hp⟩
    have hnodup := List.nodup_append.mp hplaced.nodup
    rw [hleft.mem_used_iff, List.mem_append] at hused
    rcases hused with hheld | hother
    · obtain ⟨e', he', hp'⟩ := List.mem_flatMap.mp hheld
      obtain ⟨e₂, he₂, hid₂, hports₂⟩ := h.origin hs' he'
      have hsame : e₂ = e₁ := TransportBinding.eq_of_mem_ports hnodup.1 he₂ he₁
        (hports₂ ▸ hp') (hports₁ ▸ hp)
      exact halive ⟨e', he', hid₂.symm.trans (hsame ▸ hid₁)⟩
    · exact hnodup.2.2 port hp₁ port hother rfl

end Session

/-! ## Answering an offer -/

namespace Answering

open Session

variable {s : Session} {remote : Description} (run : Answering s remote) {i : Nat}

theorem mid_outcome {n : NegotiatedMedia} (hn : run.outcomes.1[i]? = some n) :
    n.mid = midAt remote i := by
  obtain ⟨q, r, o, a, -, -, hrow⟩ := run.exists_row hn
  rcases run.row_cases hrow with ⟨-, rfl⟩ | ⟨e, -, -, -, -, hmid, -⟩
  · rfl
  · exact hmid

theorem midAt_mem_outcomes (hi : i < remote.sections.length) :
    midAt remote i ∈ run.outcomes.1.map (·.mid) := by
  rw [← run.length_negotiated] at hi
  have hn := List.getElem?_eq_getElem hi
  exact List.mem_map.mpr ⟨_, List.mem_of_getElem? hn, run.mid_outcome hn⟩

theorem mid_mem_outcomes {q : Planned} (hq : q ∈ run.plan) :
    q.mid ∈ run.outcomes.1.map (·.mid) := by
  obtain ⟨i, hi⟩ := List.mem_iff_getElem?.mp hq
  obtain ⟨m, hm, hplanned⟩ := (planAnswers_forall₂ run.plan_eq).2 i q hi
  rw [Nat.zero_add] at hplanned
  rw [mid_planAnswer hplanned]
  exact run.midAt_mem_outcomes (List.getElem?_eq_some_iff.mp hm).1

theorem legible_outcomes {n : NegotiatedMedia} (hn : n ∈ run.outcomes.1) : n.mid.Legible := by
  obtain ⟨i, hi⟩ := List.mem_iff_getElem?.mp hn
  rw [run.mid_outcome hi]
  exact legible_midAt remote i

end Answering

/-! ## Applying an answer -/

namespace Accepting

open Session

variable {s : Session} {pending : PendingOffer} {answer : Description}
  (run : Accepting s pending answer) {i : Nat}

theorem mid_outcome {n : NegotiatedMedia} (hn : run.outcomes.1[i]? = some n) :
    ∃ o, pending.offer.sections[i]? = some o ∧ n.mid = offeredMid i o := by
  obtain ⟨p, x, hp, hsettle⟩ := (settleSections_spec run.settle_eq).2.1 i n hn
  rw [Nat.zero_add] at hsettle
  refine ⟨p.1, (List.getElem?_zip_eq_some.mp hp).1, ?_⟩
  rcases settleSection_cases hsettle with ⟨rfl, -⟩ | ⟨id, codec, setup, -, -, rfl, -⟩
  · rfl
  · rfl

theorem length_outcomes : run.outcomes.1.length = pending.offer.sections.length := by
  rw [(settleSections_spec run.settle_eq).1, List.length_zip, length_of_checkAnswer run.checked,
    Nat.min_self]

theorem mem_outcomes {mid : Mid} (h : some mid ∈ pending.offer.sections.map Section.mid?) :
    mid ∈ run.outcomes.1.map (·.mid) := by
  obtain ⟨o, ho, hmid⟩ := List.mem_map.mp h
  obtain ⟨i, hi⟩ := List.mem_iff_getElem?.mp ho
  have hlt : i < run.outcomes.1.length := by
    rw [run.length_outcomes]
    exact (List.getElem?_eq_some_iff.mp hi).1
  have hn := List.getElem?_eq_getElem hlt
  obtain ⟨o', ho', hname⟩ := run.mid_outcome hn
  rw [hi, Option.some_inj] at ho'
  subst ho'
  rw [offeredMid, hmid] at hname
  exact List.mem_map.mpr ⟨_, List.mem_of_getElem? hn, hname⟩

theorem legible_outcomes {n : NegotiatedMedia} (hn : n ∈ run.outcomes.1) : n.mid.Legible := by
  obtain ⟨i, hi⟩ := List.mem_iff_getElem?.mp hn
  obtain ⟨o, -, hmid⟩ := run.mid_outcome hi
  rw [hmid]
  exact Mid.ofText_text_offered i o

end Accepting

/-! ## The invariant -/

namespace Session

variable {s s' : Session} {ports : PortAllocator}

/-- A session whose endpoints carry nothing that no outcome will mention. -/
structure Mentioned (s : Session) : Prop where
  /-- Names can be written down and read back. -/
  legible : ∀ n ∈ s.negotiated, n.mid.Legible
  /-- A pending offer repeats every negotiated section. -/
  length_le : ∀ p, s.pending = some p → s.negotiated.length ≤ p.offer.sections.length
  /-- It says the names that are due. -/
  offered : s.NamesSuffice → ∀ p, s.pending = some p →
    p.offer.sections.map Section.mid? = s.offerMids.map some
  /-- What is carried is negotiated or offered. -/
  carried : s.NamesSuffice → ∀ mid, s.transport.Carried mid →
    mid ∈ s.negotiated.map (·.mid) ∨ (s.pending ≠ none ∧ mid ∈ s.offerMids)

theorem Mentioned.mem_offerMids (h : s.Mentioned) (hfew : s.NamesSuffice) {mid : Mid}
    (hmid : s.transport.Carried mid) : mid ∈ s.offerMids :=
  (h.carried hfew mid hmid).elim (fun hin ↦ s.subset_offerMids hin) And.right

theorem Mentioned.frame (h : s.Mentioned) (hsame : SameExchange s s') : s'.Mentioned := by
  obtain ⟨hhandlers, hpending, hnegotiated, hpositions, houtline⟩ := hsame
  have hmids : s'.offerMids = s.offerMids := by
    rw [offerMids, offerMids, hhandlers, hnegotiated, hpositions]
  have hfew : s'.NamesSuffice ↔ s.NamesSuffice := by
    rw [NamesSuffice, NamesSuffice, hhandlers, hnegotiated]
  refine ⟨?_, ?_, ?_, fun hs mid hmid ↦ ?_⟩
  · rw [hnegotiated]
    exact h.legible
  · rw [hnegotiated, hpending]
    exact h.length_le
  · rw [hfew, hpending, hmids]
    exact h.offered
  · rw [hnegotiated, hpending, hmids]
    exact h.carried (hfew.mp hs) mid ((TransportBinding.carried_congr houtline).mp hmid)

/-- After an exchange nothing is pending, and all that is carried is negotiated. -/
theorem Exchanged.mentioned_after {p : Placement} {ports' : PortAllocator}
    (h : Exchanged s ports p s' ports') : s'.Mentioned where
  legible := h.legible
  length_le _ hp := nomatch h.pending_eq.symm.trans hp
  offered _ _ hp := nomatch h.pending_eq.symm.trans hp
  carried hfew mid hmid := by
    refine .inl (h.mentioned (Nat.le_trans ?_ hfew) mid hmid)
    rw [h.handlers_eq]
    exact Nat.add_le_add_right h.length_le _

theorem Mentioned.generateOffer (h : s.Mentioned) (hs : s.Sound) (ports : PortAllocator) :
    (s.generateOffer ports).session.Mentioned := by
  rcases generateOffer_cases hs.exclusive ports with ⟨e, hr⟩ | ⟨-, made, hmade⟩
  · rw [hr]
    exact h
  · obtain ⟨run, hr, hplace⟩ :=
      generateOffer_placed hs.exclusive (congrArg Reply.result hmade)
    have hgrows := Placement.grows_of_placeAll hs.exclusive hplace
    obtain ⟨_, _, _, hwritten⟩ := run.written_eq
    rw [hr, hwritten]
    refine ⟨h.legible, fun p hp ↦ ?_, fun hfew p hp ↦ ?_, fun hfew mid hmid ↦ ?_⟩
    · cases hp
      have hlen := length_le_of_planOffer run.plan_eq
      rw [← run.length_sections] at hlen
      exact hlen
    · cases hp
      exact run.mids_offer h.legible hfew
    · refine .inr ⟨Option.some_ne_none _, ?_⟩
      change mid ∈ s.offerMids
      rcases hgrows.carried mid hmid with hbefore | hplaced
      · exact h.mem_offerMids hfew hbefore
      · rw [← planOffer_mids run.plan_eq hfew]
        rw [List.map_map] at hplaced
        exact hplaced

/-- What a session carries that has no offer pending has an outcome in its answer: it is negotiated,
and the remote offer repeats what is negotiated. -/
theorem Mentioned.mem_answered (h : s.Mentioned) (hfew : s.NamesSuffice) (hnone : s.pending = none)
    {remote : Description} (hcheck : s.receiving.checkOffer remote = .ok ())
    (run : Answering s.receiving remote) {mid : Mid} (hmid : s.transport.Carried mid) :
    mid ∈ run.outcomes.1.map (·.mid) := by
  rcases h.carried hfew mid hmid with hin | ⟨hsome, -⟩
  · obtain ⟨n, hn, rfl⟩ := List.mem_map.mp hin
    obtain ⟨i, hi⟩ := List.mem_iff_getElem?.mp hn
    have hlt : i < remote.sections.length := Nat.lt_of_lt_of_le
      (List.getElem?_eq_some_iff.mp hi).1 (checkOffer_eq_ok.mp hcheck).2.2.1
    rw [← midAt_of_checkOffer (s := s.receiving) hcheck hi]
    exact run.midAt_mem_outcomes hlt
  · exact absurd hnone hsome

/-- Answering an offer is an exchange, and mentions all that is carried. -/
theorem Mentioned.answered (h : s.Mentioned) (hs : s.Sound) (ho : s.Ordered)
    {remote answer : Description} (hok : (s.processOffer ports remote).result = .ok answer) :
    ∃ p, Exchanged s ports p (s.processOffer ports remote).session
      (s.processOffer ports remote).ports := by
  obtain ⟨htakes, hcheck, run, hr, hplace⟩ := processOffer_placed hs hok
  have hgrows := Placement.grows_of_placeAll hs.exclusive hplace
  obtain ⟨hreturned, hcarried⟩ := run.committed_books
  obtain ⟨s₁, state, hcommit, hstate, hconcluded⟩ := run.concluded_spec
  have hnone : s.pending = none := by
    rw [← Option.not_isSome_iff_eq_none, ho.pending_iff]
    intro hstate
    rw [hstate] at htakes
    cases htakes
  -- writing and committing change the record in other places
  have hrecord : run.concluded.1.handlers = s.handlers ∧ run.concluded.1.pending = s.pending ∧
      run.concluded.1.state = state ∧ run.concluded.1.transport = s₁.transport := by
    obtain ⟨_, _, _, hwritten⟩ := run.written_eq
    obtain ⟨_, _, _, _, _, hrec⟩ := hcommit.record
    rw [hconcluded, hrec, Answering.secured, hwritten]
    exact ⟨rfl, rfl, rfl, rfl⟩
  obtain ⟨hhandlers, hpending, hnow, htransport⟩ := hrecord
  rw [hr]
  refine ⟨run.place, run.ready.exclusive, run.keeps, hgrows.accounts, hreturned, hcarried, ?_, ?_,
    hhandlers, hpending.trans hnone, ?_, ?_, ?_, fun hfew mid hmid ↦ ?_⟩
  · rw [run.negotiated_concluded, htransport]
    exact (Keeps.of_outline run.outline_secured).trans hcommit.keeps
  · rw [run.negotiated_concluded, htransport]
    exact hcommit.released
  · rw [hnow]
    rcases hstate with rfl | rfl <;> exact NegotiationState.noConfusion
  · rw [run.negotiated_concluded, run.length_negotiated]
    exact (checkOffer_eq_ok.mp hcheck).2.2.1
  · rw [run.negotiated_concluded]
    exact fun n hn ↦ run.legible_outcomes hn
  · rw [run.negotiated_concluded]
    rcases hgrows.carried mid (hcarried mid hmid) with hbefore | hplaced
    · exact h.mem_answered hfew hnone hcheck run hbefore
    · obtain ⟨x, hx, rfl⟩ := List.mem_map.mp hplaced
      exact run.mid_mem_outcomes (List.of_mem_zip hx).1

/-- Applying an answer is an exchange that places nothing, and mentions all that is carried. -/
theorem Mentioned.accepted (h : s.Mentioned) (hs : s.Sound) {answer : Description}
    (hok : (s.processAnswer ports answer).result = .ok ()) :
    ∃ p, Exchanged s ports p (s.processAnswer ports answer).session
      (s.processAnswer ports answer).ports := by
  rcases processAnswer_cases hs.hasPem ports answer with ⟨e, hr⟩ | ⟨-, pending, hpending, run, hr⟩
  · rw [hr] at hok
    cases hok
  obtain ⟨hreturned, hcarried⟩ := run.committed_books hs.exclusive ports
  obtain ⟨s₁, state, hcommit, hstate, hconcluded⟩ := run.concluded_spec hs.exclusive ports
  -- of the record, a commit changes what belongs to the outcome
  have hrecord : (run.concluded ports).1.handlers = s.handlers ∧
      (run.concluded ports).1.pending = none ∧ (run.concluded ports).1.state = state ∧
        (run.concluded ports).1.transport = s₁.transport := by
    obtain ⟨_, _, _, _, _, hrec⟩ := hcommit.record
    rw [hconcluded, hrec]
    exact ⟨rfl, rfl, rfl, rfl⟩
  obtain ⟨hhandlers, hnone, hnow, htransport⟩ := hrecord
  rw [hr]
  refine ⟨{ transport := s.transport, ports := ports }, hs.exclusive, .refl _ _, fun _ hacc ↦ hacc,
    hreturned, hcarried, ?_, ?_, hhandlers, hnone, ?_, ?_, ?_, fun hfew mid hmid ↦ ?_⟩
  · rw [run.negotiated_concluded hs.exclusive, htransport]
    exact (Keeps.of_outline run.outline_secured).trans hcommit.keeps
  · rw [run.negotiated_concluded hs.exclusive, htransport]
    exact hcommit.released
  · rw [hnow]
    rcases hstate with rfl | rfl <;> exact NegotiationState.noConfusion
  · rw [run.negotiated_concluded hs.exclusive, run.length_outcomes]
    exact h.length_le pending hpending
  · rw [run.negotiated_concluded hs.exclusive]
    exact fun n hn ↦ run.legible_outcomes hn
  · rw [run.negotiated_concluded hs.exclusive]
    refine run.mem_outcomes ?_
    rw [h.offered hfew pending hpending]
    exact List.mem_map_of_mem (h.mem_offerMids hfew (hcarried mid hmid))

theorem Mentioned.processOffer (h : s.Mentioned) (hs : s.Sound) (ho : s.Ordered)
    (ports : PortAllocator) (remote : Description) :
    (s.processOffer ports remote).session.Mentioned := by
  rcases processOffer_cases hs.exclusive hs.hasPem hs.answerSetup_ne ports remote with
    ⟨e, hr⟩ | ⟨-, -, run, hr⟩
  · rw [hr]
    exact h
  · obtain ⟨p, hexchanged⟩ := h.answered hs ho (congrArg Reply.result hr)
    exact hexchanged.mentioned_after

theorem Mentioned.processAnswer (h : s.Mentioned) (hs : s.Sound) (ports : PortAllocator)
    (answer : Description) : (s.processAnswer ports answer).session.Mentioned := by
  rcases processAnswer_cases hs.hasPem ports answer with ⟨e, hr⟩ | ⟨-, pending, -, run, hr⟩
  · rw [hr]
    exact h
  · obtain ⟨p, hexchanged⟩ := h.accepted hs (congrArg Reply.result hr)
    exact hexchanged.mentioned_after

theorem Mentioned.close (h : s.Mentioned) (ports : PortAllocator) :
    (s.close ports).session.Mentioned := by
  rw [Session.close]
  split
  · exact h
  · refine ⟨fun n hn ↦ ?_, fun _ hp ↦ absurd hp.symm (Option.some_ne_none _),
      fun _ _ hp ↦ absurd hp.symm (Option.some_ne_none _), fun _ mid hmid ↦ ?_⟩
    · obtain ⟨n₀, hn₀, rfl⟩ := List.mem_map.mp hn
      exact h.legible n₀ hn₀
    · obtain ⟨e, he, -⟩ := hmid
      exact absurd he List.not_mem_nil

/-- **Every call keeps the invariant.** -/
theorem Mentioned.call (h : s.Mentioned) (hs : s.Sound) (ho : s.Ordered) (ports : PortAllocator)
    (c : SessionCall) : (s.call ports c).session.Mentioned := by
  by_cases hbetween : c.isBetween = true
  · exact h.frame (sameExchange_call s ports hbetween).1
  cases c with
  | offer => exact h.generateOffer hs ports
  | answer offer => exact h.processOffer hs ho ports offer
  | accept answer => exact h.processAnswer hs ports answer
  | close => exact h.close ports
  | _ => exact absurd rfl hbetween

theorem Reachable.mentioned (h : s.Reachable) : s.Mentioned := by
  induction h with
  | build hbuild =>
    obtain ⟨handlers, -, rfl⟩ := build_eq hbuild
    refine ⟨fun _ hn ↦ absurd hn List.not_mem_nil,
      fun _ hp ↦ absurd hp.symm (Option.some_ne_none _),
      fun _ _ hp ↦ absurd hp.symm (Option.some_ne_none _), fun _ _ hmid ↦ ?_⟩
    obtain ⟨e, he, -⟩ := hmid
    exact absurd he List.not_mem_nil
  | call ports c hs ih => exact ih.call hs.sound hs.ordered ports c
  | rtcp buffer _ ih => exact ih.frame ⟨rfl, rfl, rfl, rfl, rfl⟩

/-! ## After an exchange -/

/-- A session whose endpoints are all in use. -/
structure InUse (s : Session) : Prop where
  /-- Every identifier that is carried is one of the outcome. -/
  occurs : ∀ e ∈ s.transport.endpoints, ∀ mid ∈ e.mids, ∃ n ∈ s.negotiated, n.mid = mid
  /-- No section of it is rejected. -/
  accepted : ∀ e ∈ s.transport.endpoints, ∀ mid ∈ e.mids, ∀ n ∈ s.negotiated, n.mid = mid →
    n.rejected = false
  /-- It is carried once. -/
  unique : ∀ e ∈ s.transport.endpoints, ∀ e' ∈ s.transport.endpoints, ∀ mid, mid ∈ e.mids →
    mid ∈ e'.mids → e = e'

theorem Exchanged.inUse {p : Placement} {ports' : PortAllocator}
    (h : Exchanged s ports p s' ports') (hs' : s'.Sound) (hfew : s.NamesSuffice) :
    s'.InUse where
  occurs e he mid hmid := List.mem_map.mp (h.mentioned hfew mid ⟨e, he, hmid⟩)
  accepted e he mid hmid n hn hname := by
    rw [← Bool.not_eq_true, ← hs'.endpoint_iff h.not_closed n hn]
    exact fun hnone ↦ h.not_released he hmid ⟨n, hn, hnone, hname⟩
  unique e he e' he' mid hmid hmid' := hs'.exclusive.toWellFormed.eq_of_id he he'
    (hs'.exclusive.carrier_unique e he e' he' mid hmid hmid')

theorem InUse.exists_accepted (h : s.InUse) (hs : s.Sound) (hopen : s.state ≠ .closed)
    {e : Endpoint} (he : e ∈ s.transport.endpoints) :
    ∃ n ∈ s.negotiated, n.rejected = false ∧ n.mid ∈ e.mids ∧ n.endpoint = some e.id := by
  obtain ⟨mid, hmid⟩ := List.exists_mem_of_ne_nil _ (hs.exclusive.mids_ne_nil e he)
  obtain ⟨n, hn, rfl⟩ := h.occurs e he mid hmid
  have hrej := h.accepted e he n.mid hmid n hn rfl
  refine ⟨n, hn, hrej, hmid, ?_⟩
  cases hend : n.endpoint with
  | none =>
    rw [(hs.endpoint_iff hopen n hn).mp hend] at hrej
    cases hrej
  | some id =>
    have hkept : ¬Released s.negotiated n.mid := fun ⟨r, hr, hnone, hname⟩ ↦ by
      have hrrej := h.accepted e he n.mid hmid r hr hname
      rw [(hs.endpoint_iff hopen r hr).mp hnone] at hrrej
      cases hrrej
    rw [← hs.carried n hn id hend hkept]
    exact hs.exclusive.carrier?_eq_some.mpr ⟨e, he, rfl, hmid⟩

/-- **No transport leaks.** Whenever a session that was built has answered an offer or applied an
answer, all its endpoints are in use: they carry identifiers of the outcome only, none of a rejected
section, and none twice. The ports in use are those of its endpoints and whatever others hold. So an
endpoint that carried a rejected section is left to an accepted one that shares it, or its ports are
free; and the same holds of every endpoint there was. Beyond `Mid.indexBound` sections, two offers
before one answer may draw different names, and what only the first of them named is lost. -/
theorem no_transport_leaks (hs : s.Reachable) (hfew : s.NamesSuffice) (ports : PortAllocator)
    {c : SessionCall} (hc : (∃ offer, c = .answer offer) ∨ ∃ answer, c = .accept answer)
    {result : SessionResult} (h : (s.call ports c).result = .ok result) :
    let after := s.call ports c
    after.session.InUse ∧
      ∀ others, Accounts ports (s.transport.heldPorts ++ others) →
        Accounts after.ports (after.session.transport.heldPorts ++ others) ∧
        ∀ e ∈ s.transport.endpoints,
          (∃ e' ∈ after.session.transport.endpoints, e'.id = e.id ∧ e'.ports = e.ports ∧
            ∃ n ∈ after.session.negotiated, n.rejected = false ∧ n.mid ∈ e'.mids ∧
              n.endpoint = some e.id) ∨
          ∀ p ∈ e.ports, p ∉ after.ports.used := by
  intro after
  have hsound := hs.sound
  have hsound' : after.session.Sound := hsound.call ports c
  obtain ⟨p, hexchanged⟩ : ∃ p, Exchanged s ports p after.session after.ports := by
    rcases hc with ⟨offer, rfl⟩ | ⟨answer, rfl⟩
    · cases hr : (s.processOffer ports offer).result with
      | error e => simp [call, Reply.map, Except.map, hr] at h
      | ok answer => exact hs.mentioned.answered hsound hs.ordered hr
    · cases hr : (s.processAnswer ports answer).result with
      | error e => simp [call, Reply.map, Except.map, hr] at h
      | ok _ => exact hs.mentioned.accepted hsound hr
  have huse := hexchanged.inUse hsound' hfew
  refine ⟨huse, fun others hacc ↦ ⟨accounts_call hsound hacc c, fun e he ↦ ?_⟩⟩
  -- an endpoint that is left is in use, and one that is not has given its ports back
  rcases hexchanged.left_or_free hsound.exclusive hsound'.exclusive hacc he with
    ⟨e', he', hid, hports⟩ | hfree
  · obtain ⟨n, hn, hrej, hmid, hend⟩ :=
      huse.exists_accepted hsound' hexchanged.not_closed he'
    exact .inl ⟨e', he', hid, hports, n, hn, hrej, hmid, hend.trans (congrArg some hid)⟩
  · exact .inr hfree

/-- An offer of one data channel, which port 0 switches off. -/
def channelAt (port : UInt16) : Description where
  session := { id := 1, version := 1 }
  sections :=
    [{ kind := .application, port := port, proto := "UDP/DTLS/SCTP",
       formats := ["webrtc-datachannel"],
       attrs := [.of "mid" "a", .of "ice-ufrag" "u", .of "ice-pwd" "p", .of "setup" "actpass",
        .of "sctp-port" "5000"] }]

/-- A data channel takes a port, and gives it back when it is switched off. -/
theorem switched_off_gives_back :
    let first := (ofChannels ⟨fun i ↦ i, 0⟩).call {} (.answer (channelAt 9))
    let second := first.session.call first.ports (.answer (channelAt 0))
    second.result.isOk = true ∧ second.session.InUse ∧
      ∃ e ∈ first.session.transport.endpoints, ∀ p ∈ e.ports,
        p ∈ first.ports.used ∧ p ∉ second.ports.used := by
  intro first second
  have hs := reachable_ofChannels ⟨fun i ↦ i, 0⟩
  have hok : second.result.isOk = true := by decide +kernel
  have hfew : first.session.NamesSuffice :=
    show first.session.negotiated.length + first.session.handlers.length ≤ Mid.indexBound by
      decide +kernel
  -- nothing is in use before the first call
  have hnothing : Accounts {} ((ofChannels ⟨fun i ↦ i, 0⟩).transport.heldPorts ++ []) :=
    ⟨List.Perm.refl _, List.nodup_nil, List.not_mem_nil⟩
  have hacc : Accounts first.ports (first.session.transport.heldPorts ++ []) :=
    accounts_call hs.sound hnothing (.answer (channelAt 9))
  cases h : second.result with
  | error e =>
    rw [h] at hok
    cases hok
  | ok result =>
    obtain ⟨huse, hports⟩ := no_transport_leaks (.call {} (.answer (channelAt 9)) hs) hfew
      first.ports (.inl ⟨channelAt 0, rfl⟩) h
    have hfirst : first.session.transport.endpoints ≠ [] := by decide +kernel
    have hsecond : second.session.transport.endpoints = [] := by decide +kernel
    obtain ⟨e, he⟩ := List.exists_mem_of_ne_nil _ hfirst
    refine ⟨rfl, huse, e, he, fun p hp ↦ ⟨?_, ?_⟩⟩
    · exact hacc.mem_used_iff.mpr (List.mem_append_left _ (List.mem_flatMap.mpr ⟨e, he, hp⟩))
    · rcases (hports [] hacc).2 e he with ⟨e', he', -⟩ | hfree
      · rw [hsecond] at he'
        cases he'
      · exact hfree p hp

end Session

end OfferAnswer
