import OfferAnswer.Proofs.Session.Describe
import OfferAnswer.Proofs.Session.Placement
import OfferAnswer.Session.Offer

/-!
# An offer, stage by stage

Offering plans the sections, places them and writes them down. Only planning can fail, and it takes
nothing. `Offering` holds what the stages produced.
-/

namespace OfferAnswer

open TransportBinding (Keeps)

/-- A section for which there is no port, as it is offered. -/
def Session.withoutPort (m : Section) : Section := { m with port := 0 }

/-- What the stages of an offer produce. -/
structure Offering (s : Session) where
  /-- The sections, before they have ports. -/
  plan : List Planned
  /-- The sections once they are placed. -/
  placed : List Planned
  /-- The endpoints and ports once they are placed. -/
  place : Placement
  /-- Every section was planned. -/
  plan_eq : s.planOffer = .ok plan
  /-- Lookups are reliable. -/
  ready : place.Ready
  /-- What was carried stays where it was. -/
  keeps : Keeps (fun _ ↦ True) s.transport place.transport
  /-- What became of every planned section. -/
  fates : List.Forall₂ (fun x r ↦ Placement.Fate place.transport x.1 x.2 r)
    (plan.map fun q ↦ (q, Session.withoutPort)) placed

namespace Offering

variable {s : Session} (run : Offering s)

/-- The session with its sections placed. -/
def start : Session := { s with transport := run.place.transport }

/-- The offer, and the session that wrote it. -/
def written : Description × Session := run.start.writeOffer run.placed

def offer : Description := run.written.1

theorem written_eq : ∃ ssrcs e version, run.written.2 =
    { s with
      transport := run.place.transport
      ssrcs := ssrcs
      entropy := e
      version := version
      ours := some run.offer
      pending := some ⟨run.offer, run.placed.map (·.handler)⟩
      state := .offerGenerated } :=
  Session.writeOffer_eq run.start run.placed

/-! ### Rows -/

/-- One section on its way through an offer: planned, placed and written. -/
structure Row (i : Nat) (q r : Planned) (offered : Section) : Prop where
  /-- How it was planned. -/
  planned : run.plan[i]? = some q
  /-- Where it stands among those that were placed. -/
  placed : run.placed[i]? = some r
  /-- What became of it. -/
  fate : Placement.Fate run.place.transport q Session.withoutPort r
  /-- How it was written. -/
  written : ∃ ssrcs e, offered =
    ((run.start.withSources ssrcs e).decorate r.mid (Session.offerSetup r) r.body).1

theorem exists_row {i : Nat} {o : Section} (ho : run.offer.sections[i]? = some o) :
    ∃ q r, run.Row i q r o := by
  obtain ⟨⟨r, setup⟩, hr, hwritten⟩ := exists_getElem?_of_forall₂
    (Session.decorateAll_sections run.start (run.placed.map fun q ↦ (q, Session.offerSetup q))) ho
  obtain ⟨r', hplaced, heq⟩ := Option.map_eq_some_iff.mp (List.getElem?_map.symm.trans hr)
  cases heq
  obtain ⟨⟨q, refuse⟩, hq, hfate⟩ := exists_getElem?_of_forall₂ run.fates hplaced
  obtain ⟨q', hplanned, heq⟩ := Option.map_eq_some_iff.mp (List.getElem?_map.symm.trans hq)
  cases heq
  exact ⟨q, r, hplanned, hplaced, hfate, hwritten⟩

/-- What holds of all sections as they were placed holds in every row. -/
theorem Row.of_placed {run : Offering s} {P : Planned × (Section → Section) → Planned → Prop}
    {i : Nat} {q r : Planned} {o : Section} (hrow : run.Row i q r o)
    (h : List.Forall₂ P (run.plan.map fun q ↦ (q, Session.withoutPort)) run.placed) :
    P (q, Session.withoutPort) r := by
  obtain ⟨x, hx, hP⟩ := exists_getElem?_of_forall₂ h hrow.placed
  rw [List.getElem?_map, hrow.planned, Option.map_some, Option.some_inj] at hx
  exact hx ▸ hP

theorem length_placed : run.placed.length = run.plan.length := by
  have hplaced := run.fates.length_eq
  rw [List.length_map] at hplaced
  exact hplaced.symm

theorem length_sections : run.offer.sections.length = run.plan.length := by
  have hwritten := (Session.decorateAll_sections run.start
    (run.placed.map fun q ↦ (q, Session.offerSetup q))).length_eq
  rw [List.length_map] at hwritten
  exact hwritten.symm.trans run.length_placed

theorem exists_row_of_placed {i : Nat} {r : Planned} (hr : run.placed[i]? = some r) :
    ∃ q o, run.offer.sections[i]? = some o ∧ run.Row i q r o := by
  have hi : i < run.offer.sections.length :=
    run.length_sections.trans run.length_placed.symm ▸ (List.getElem?_eq_some_iff.mp hr).1
  obtain ⟨q, r', hrow⟩ := run.exists_row (List.getElem?_eq_getElem hi)
  obtain rfl : r' = r := Option.some.inj (hrow.placed.symm.trans hr)
  exact ⟨q, _, List.getElem?_eq_getElem hi, hrow⟩

end Offering

namespace Session

variable {s : Session} {ports : PortAllocator}

/-- An offer whose sections can be planned is made, with the placement that it started from. -/
theorem generateOffer_ok (hexcl : s.transport.Exclusive)
    (hstate : ¬(s.state = .closed ∨ s.state = .offerReceived)) (ports : PortAllocator)
    {plan : List Planned} (hplan : s.planOffer = .ok plan) :
    ∃ run : Offering s, run.plan = plan ∧
      s.generateOffer ports = ⟨.ok run.offer, run.written.2, run.place.ports⟩ ∧
      Placement.placeAll s.config.portRange (fun _ ↦ s.bundles)
        (plan.map fun q ↦ (q, withoutPort)) { transport := s.transport, ports := ports } =
        (.ok run.placed, run.place) := by
  obtain ⟨placed, place, hplace, hready, hkeeps, hfates⟩ := Placement.placeAll_ok
    (Placement.ready_start hexcl ports) s.config.portRange (fun _ ↦ s.bundles)
    (plan.map fun q ↦ (q, withoutPort))
  let run : Offering s := ⟨plan, placed, place, hplan, hready, hkeeps, hfates⟩
  refine ⟨run, rfl, ?_, hplace⟩
  unfold withoutPort at hplace
  rw [generateOffer, if_neg hstate, hplan]
  dsimp only
  rw [hplace]
  rfl

theorem generateOffer_placed (hexcl : s.transport.Exclusive) {offer : Description}
    (h : (s.generateOffer ports).result = .ok offer) :
    ∃ run : Offering s,
      s.generateOffer ports = ⟨.ok run.offer, run.written.2, run.place.ports⟩ ∧
      Placement.placeAll s.config.portRange (fun _ ↦ s.bundles)
        (run.plan.map fun q ↦ (q, withoutPort)) { transport := s.transport, ports := ports } =
        (.ok run.placed, run.place) := by
  by_cases hstate : s.state = .closed ∨ s.state = .offerReceived
  · rw [generateOffer, if_pos hstate] at h
    cases h
  cases hplan : s.planOffer with
  | error e =>
    rw [generateOffer, if_neg hstate, hplan] at h
    cases h
  | ok plan =>
    obtain ⟨run, rfl, hr, hplace⟩ := generateOffer_ok hexcl hstate ports hplan
    exact ⟨run, hr, hplace⟩

/-- **All that making an offer can do**: fail and leave everything as it was, or make it. -/
theorem generateOffer_cases (hexcl : s.transport.Exclusive) (ports : PortAllocator) :
    (∃ e, s.generateOffer ports = s.unchanged ports (.error e)) ∨
      s.state ≠ .closed ∧ ∃ run : Offering s,
        s.generateOffer ports = ⟨.ok run.offer, run.written.2, run.place.ports⟩ := by
  by_cases hstate : s.state = .closed ∨ s.state = .offerReceived
  · refine Or.inl ⟨s.wrongState "generate_offer", ?_⟩
    rw [generateOffer, if_pos hstate]
  · cases hplan : s.planOffer with
    | error e =>
      refine Or.inl ⟨e, ?_⟩
      rw [generateOffer, if_neg hstate, hplan]
    | ok plan =>
      obtain ⟨run, -, hrun, -⟩ := generateOffer_ok hexcl hstate ports hplan
      exact Or.inr ⟨fun hc ↦ hstate (Or.inl hc), run, hrun⟩

end Session

end OfferAnswer
