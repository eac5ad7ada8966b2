import OfferAnswer.Proofs.Session.Persistence
import OfferAnswer.Proofs.Session.Positional

/-!
# What a negotiation leaves in hand

A section that is written and accepted is held: its endpoint is there, and so is its source. Writing
later sections and committing the outcome take neither away, as long as no rejected section has its
identifier. So a session can write every section of its last description again.
-/

namespace OfferAnswer

open TransportBinding (Keeps)

/-! ## Offers -/

namespace Offering

open Session

variable {s : Session} {run : Offering s} {i : Nat} {q r : Planned} {o : Section}

theorem handlers_placed (run : Offering s) :
    run.placed.map (·.handler) = run.plan.map (·.handler) := by
  have hfates := run.fates
  rw [List.forall₂_map_left_iff] at hfates
  have hsame : List.Forall₂ (· = ·) (run.plan.map (·.handler)) (run.placed.map (·.handler)) := by
    rw [List.forall₂_map_left_iff, List.forall₂_map_right_iff]
    exact hfates.imp fun _ _ hfate ↦ hfate.handler_eq.symm
  rw [List.forall₂_eq_eq_eq] at hsame
  exact hsame.symm

/-- The session that has written an offer writes every section of it again. -/
theorem Row.written_again (hrow : run.Row i q r o) (ho : run.offer.sections[i]? = some o) :
    run.written.2.decorate r.mid (offerSetup r) r.body = (o, run.written.2) := by
  obtain ⟨hagain, -⟩ := decorateAll_again run.start (run.placed.map fun q ↦ (q, offerSetup q))
  obtain ⟨x, hx, hwritten⟩ := exists_getElem?_of_forall₂ hagain ho
  rw [List.getElem?_map, hrow.placed, Option.map_some, Option.some_inj] at hx
  subst hx
  have hwrites : WritesAs (run.start.decorateAll (run.placed.map fun q ↦ (q, offerSetup q))).2
      run.written.2 r.mid := ⟨rfl, rfl, rfl, rfl, fun _ hv ↦ hv⟩
  exact decorate_congr hwrites hwritten

theorem Row.holds (hrow : run.Row i q r o) (ho : run.offer.sections[i]? = some o)
    (hrej : o.isRejected = false) : run.written.2.Holds q.mid (offerSetup q) q.body o := by
  have hagain := hrow.written_again ho
  have htransport : run.written.2.transport = run.place.transport := by
    obtain ⟨_, _, _, h⟩ := run.written_eq
    rw [h]
  obtain ⟨ssrcs, e, hwritten⟩ := hrow.written
  rw [hwritten, Section.isRejected, port_decorate] at hrej
  cases hrow.fate with
  | rejected hplan =>
    rw [Section.isRejected, hrej] at hplan
    cases hplan
  | refused _ => cases hrej
  | @carried e haccepted he hcarries =>
    have hsetup : offerSetup { q with body := Placement.writePorts e q.body } = offerSetup q := by
      rw [offerSetup, offerSetup, Placement.proto_writePorts]
    rw [hsetup] at hagain
    exact ⟨haccepted, e, htransport ▸ he, hcarries, hagain⟩

end Offering

/-! ## Answers -/

namespace Answering

open Session

variable {s : Session} {remote : Description} {run : Answering s remote} {i : Nat}
  {q r : Planned} {o a : Section} {n : NegotiatedMedia}

theorem Row.written_again (hrow : run.Row i q r o a n) (ha : run.answer.sections[i]? = some a) :
    run.written.2.decorate r.mid (run.setupAt i r) r.body = (a, run.written.2) := by
  obtain ⟨hagain, -⟩ := decorateAll_again run.start run.decorated
  obtain ⟨⟨r', setup⟩, hx, hwritten⟩ := exists_getElem?_of_forall₂ hagain ha
  obtain ⟨hr', hsetup⟩ := List.getElem?_zip_eq_some.mp hx
  rw [hrow.placed, Option.some_inj] at hr'
  subst hr'
  rw [getElem?_answerSetups, hrow.placed, Option.map_some, Option.some_inj, Nat.zero_add] at hsetup
  replace hsetup : run.setupAt i r = setup := hsetup
  subst hsetup
  have hwrites : WritesAs (run.start.decorateAll run.decorated).2 run.written.2 r.mid :=
    ⟨rfl, rfl, rfl, rfl, fun _ hv ↦ hv⟩
  exact decorate_congr hwrites hwritten

/-- The answer to a rejected section is a rejection and nothing else. -/
theorem Row.answered_of_rejected (hrow : run.Row i q r o a n)
    (hdeclared : o.attr? "mid" = some (midAt remote i).text) (hrej : a.isRejected = true) :
    a = .rejected o := by
  have hmid : r.mid = midAt remote i := hrow.mid_eq
  obtain ⟨ssrcs, e, hwritten⟩ := hrow.written
  rw [hwritten, Section.isRejected, port_decorate] at hrej
  rw [hwritten, decorate_rejected _ _ _ hrej, hrow.body_of_rejected hrej, hmid]
  exact Section.add_mid_rejected hdeclared

theorem Row.holds (hrow : run.Row i q r o a n) (ha : run.answer.sections[i]? = some a)
    (hrej : a.isRejected = false) : ∃ (p : Nat) (h : MediaHandler) (body : Section),
      r.handler = some p ∧ o.isRejected = false ∧ s.handlerFor? o = some p ∧
        s.handler? (some p) = some h ∧ h.createAnswer o = .ok body ∧ r.body.proto = body.proto ∧
          run.written.2.Holds (midAt remote i) (run.setupAt i r) body a := by
  have hagain := hrow.written_again ha
  obtain ⟨ssrcs, e, hwritten⟩ := hrow.written
  rw [hwritten, Section.isRejected, port_decorate] at hrej
  have hplanned := hrow.planned
  cases hrow.fate with
  | rejected hplan =>
    rw [Section.isRejected, hrej] at hplan
    cases hplan
  | refused _ => cases hrej
  | @carried e haccepted he hcarries =>
    rcases planAnswer_cases hplanned with ⟨_, rfl⟩ | ⟨p, h, body, horej, hp, hh, hbody, rfl⟩
    · cases haccepted
    · refine ⟨p, h, body, rfl, horej, hp, hh, hbody, Placement.proto_writePorts e body, haccepted,
        e, ?_, hcarries, hagain⟩
      rw [run.transport_written]
      exact he

end Answering

/-! ## The end of an exchange -/

namespace Answering

open Session

variable {s : Session} {remote : Description} (run : Answering s remote) {mid : Mid}
  {setup : Option Setup} {body written : Section}

/-- What is held when the answer is written is held in the end. -/
theorem holds_concluded (h : run.written.2.Holds mid setup body written)
    (hkept : ¬Released run.outcomes.1 mid) : run.concluded.1.Holds mid setup body written := by
  have hwrites := run.writesAs_concluded hkept
  obtain ⟨s₁, state, hcommit, -, hs⟩ := run.concluded_spec
  have hsecured : Keeps (fun mid ↦ ¬Released run.outcomes.1 mid) run.written.2.transport
      run.secured.transport := .of_outline (outline_setChannels _ _)
  rw [hs] at hwrites ⊢
  exact h.mono hwrites (hsecured.trans hcommit.keeps) hkept

theorem cleared_concluded : run.concluded.1.Cleared := by
  intro n hn hnone
  rw [run.negotiated_concluded] at hn
  obtain ⟨s₁, state, hcommit, -, hs⟩ := run.concluded_spec
  rw [hs]
  exact hcommit.released n.mid ⟨n, hn, hnone, rfl⟩

end Answering

namespace Accepting

open Session

variable {s : Session} {pending : PendingOffer} {answer : Description}
  (run : Accepting s pending answer) {mid : Mid} {setup : Option Setup} {body written : Section}

theorem holds_concluded (hexcl : s.transport.Exclusive) (h : s.Holds mid setup body written)
    (hkept : ¬Released run.outcomes.1 mid) (ports : PortAllocator) :
    (run.concluded ports).1.Holds mid setup body written := by
  have hwrites := run.writesAs_concluded hexcl hkept ports
  obtain ⟨s₁, state, hcommit, -, hs⟩ := run.concluded_spec hexcl ports
  have hsecured : Keeps (fun mid ↦ ¬Released run.outcomes.1 mid) s.transport
      run.secured.transport := .of_outline run.outline_secured
  rw [hs] at hwrites ⊢
  exact h.mono hwrites (hsecured.trans hcommit.keeps) hkept

theorem cleared_concluded (hexcl : s.transport.Exclusive) (ports : PortAllocator) :
    (run.concluded ports).1.Cleared := by
  intro n hn hnone
  rw [run.negotiated_concluded hexcl ports] at hn
  obtain ⟨s₁, state, hcommit, -, hs⟩ := run.concluded_spec hexcl ports
  rw [hs]
  exact hcommit.released n.mid ⟨n, hn, hnone, rfl⟩

end Accepting

end OfferAnswer
