import OfferAnswer.Proofs.Session.Conclusion

/-!
# Who handles a section

A section that was accepted is repeated in every later offer, by the handler that it was negotiated
with. Two lists remember who that is: `sectionHandlers` for the sections of the outcome, and the
pending offer for those of its own. A position in them may be missing or belong to a handler of
another kind, and then there would be nobody to repeat the section. `Session.Staffed` says that this
never happens.

The clause about the pending offer is what makes the one about the outcome inductive: an answer that
is applied takes its handlers from there.
-/

namespace OfferAnswer

namespace MediaHandler

variable {h : MediaHandler} {kind : MediaKind} {previous : Option Section} {o : Section}

/-- A handler offers sections of its own kind, and only if asked for that kind. -/
theorem kind_of_offer (ho : h.offer kind previous = .ok o) : h.kind = kind ∧ o.kind = kind := by
  obtain ⟨rfl, rfl⟩ := offer_eq_ok_iff.mp ho
  exact ⟨rfl, kind_offered h previous⟩

end MediaHandler

namespace Session

variable {s s' : Session}

/-! ## The invariant -/

/-- Whether a position is that of a handler of a kind. -/
def Handles (s : Session) (position : Option Nat) (kind : MediaKind) : Prop :=
  ∃ h, s.handler? position = some h ∧ h.kind = kind

/-- A session that has a handler for every section that it accepted or may see accepted. -/
structure Staffed (s : Session) : Prop where
  /-- An accepted section has a handler of its kind. -/
  accepted : ∀ (i : Nat) n, s.negotiated[i]? = some n → n.rejected = false →
    s.Handles (s.positionAt i) n.kind
  /-- A section that is offered has one, too. -/
  offered : ∀ p, s.pending = some p → ∀ (i : Nat) o, p.offer.sections[i]? = some o →
    o.isRejected = false → s.Handles (p.handlers[i]?).join o.kind

theorem Handles.congr {position : Option Nat} {kind : MediaKind} (h : s.Handles position kind)
    (hhandlers : s'.handlers = s.handlers) : s'.Handles position kind := by
  obtain ⟨handler, hhandler, hkind⟩ := h
  refine ⟨handler, ?_, hkind⟩
  rw [handler?, hhandlers]
  exact hhandler

theorem Staffed.frame (h : s.Staffed) (hsame : SameExchange s s') : s'.Staffed where
  accepted i n hn hrej := by
    rw [hsame.negotiated_eq] at hn
    rw [positionAt, hsame.sectionHandlers_eq]
    exact (h.accepted i n hn hrej).congr hsame.handlers_eq
  offered p hp i o ho hrej := by
    rw [hsame.pending_eq] at hp
    exact (h.offered p hp i o ho hrej).congr hsame.handlers_eq

/-! ## Offering -/

theorem handles_of_repeated {n : NegotiatedMedia} {position : Option Nat}
    {previous : Option Section} {m : Section} (h : s.repeated n position previous = .ok m)
    (hrej : m.isRejected = false) : s.Handles position m.kind ∧ m.kind = n.kind := by
  unfold repeated at h
  dsimp only at h
  split at h
  · rename_i handler hoffered
    split at hoffered
    · cases hoffered
    · obtain ⟨hhandler, hkind⟩ := MediaHandler.kind_of_offer h
      exact ⟨⟨handler, hoffered, hhandler.trans hkind.symm⟩, hkind⟩
  · cases h
    exact absurd hrej Bool.noConfusion
  · cases h
    exact absurd hrej Bool.noConfusion

theorem kind_offerMux (s : Session) (q : Planned) : (s.offerMux q).body.kind = q.body.kind := by
  rw [offerMux]
  split <;> rfl

theorem isRejected_offerMux (s : Session) (q : Planned) :
    (s.offerMux q).body.isRejected = q.body.isRejected := by
  rw [offerMux]
  split <;> rfl

theorem offerMux_of_rejected (s : Session) {q : Planned} (h : q.body.isRejected = true) :
    s.offerMux q = q := by
  rw [offerMux, h, Bool.not_true, Bool.false_and, Bool.false_and, if_neg Bool.false_ne_true]

/-- What is planned for an offer and not rejected has a handler of its kind. -/
theorem handles_of_planOffer {plan : List Planned} (h : s.planOffer = .ok plan) {q : Planned}
    (hq : q ∈ plan) (hrej : q.body.isRejected = false) : s.Handles q.handler q.body.kind := by
  obtain ⟨i, hi⟩ := List.mem_iff_getElem?.mp hq
  obtain ⟨q₀, hdraft, rfl⟩ := drafted_of_planOffer h hi
  rw [isRejected_offerMux] at hrej
  rw [handler_offerMux, kind_offerMux]
  cases hdraft with
  | repeated _ hm => exact (handles_of_repeated hm hrej).1
  | added _ _ hj hm => exact ⟨_, hj, (MediaHandler.kind_of_offer hm).2.symm⟩

end Session

namespace Offering

open Session

variable {s : Session} {run : Offering s} {i : Nat} {q r : Planned} {o : Section}

/-- What neither the ports nor the session write stays as it was planned. -/
theorem Row.eq_of_kept {α : Type} (hrow : run.Row i q r o) (f : Section → α)
    (hdecorate : ∀ (s : Session) mid setup m, f (s.decorate mid setup m).1 = f m)
    (hports : ∀ e m, f (Placement.writePorts e m) = f m) (hport : ∀ m, f (withoutPort m) = f m) :
    f o = f q.body := by
  obtain ⟨ssrcs, e, rfl⟩ := hrow.written
  rw [hdecorate]
  cases hrow.fate with
  | rejected _ => rfl
  | @carried e _ _ _ => exact hports e q.body
  | refused _ => exact hport q.body

theorem Row.kind_eq (hrow : run.Row i q r o) : o.kind = q.body.kind :=
  hrow.eq_of_kept Section.kind kind_decorate Placement.kind_writePorts fun _ ↦ rfl

theorem Row.proto_eq (hrow : run.Row i q r o) : o.proto = q.body.proto :=
  hrow.eq_of_kept Section.proto proto_decorate Placement.proto_writePorts fun _ ↦ rfl

theorem Row.formats_eq (hrow : run.Row i q r o) : o.formats = q.body.formats :=
  hrow.eq_of_kept Section.formats formats_decorate Placement.formats_writePorts fun _ ↦ rfl

/-- A section that was planned with port 0 is offered with port 0. -/
theorem Row.planned_accepted (hrow : run.Row i q r o) (hrej : o.isRejected = false) :
    q.body.isRejected = false := by
  cases hrow.fate with
  | rejected hq =>
    obtain ⟨ssrcs, e, rfl⟩ := hrow.written
    rw [Section.isRejected, port_decorate] at hrej
    exact hrej
  | carried hq _ _ => exact hq
  | refused hq => exact hq

end Offering

namespace Session

variable {s s' : Session} {ports : PortAllocator}

theorem Staffed.generateOffer (h : s.Staffed) (hs : s.Sound) (ports : PortAllocator) :
    (s.generateOffer ports).session.Staffed := by
  rcases generateOffer_cases hs.exclusive ports with ⟨e, hr⟩ | ⟨-, run, hr⟩
  · rw [hr]
    exact h
  rw [hr]
  obtain ⟨ssrcs, e, version, hwritten⟩ := run.written_eq
  refine ⟨fun i n hn hrej ↦ ?_, fun p hp i o ho hrej ↦ ?_⟩
  · rw [hwritten] at hn ⊢
    exact h.accepted i n hn hrej
  · rw [hwritten] at hp ⊢
    cases hp
    obtain ⟨q, r, hrow⟩ := run.exists_row ho
    have hhandles := handles_of_planOffer run.plan_eq (List.mem_of_getElem? hrow.planned)
      (hrow.planned_accepted hrej)
    have hposition : ((run.placed.map (·.handler))[i]?).join = q.handler := by
      rw [List.getElem?_map, hrow.placed, Option.map_some, Option.join_some, hrow.fate.handler_eq]
    rw [hposition, hrow.kind_eq]
    exact hhandles

/-! ## Answering -/

theorem Staffed.processOffer (h : s.Staffed) (hs : s.Sound) (ports : PortAllocator)
    (remote : Description) : (s.processOffer ports remote).session.Staffed := by
  rcases processOffer_cases hs.exclusive hs.hasPem hs.answerSetup_ne ports remote with
    ⟨e, hr⟩ | ⟨-, -, run, hr⟩
  · rw [hr]
    exact h
  rw [hr]
  obtain ⟨s₁, state, hcommit, -, hconcluded⟩ := run.concluded_spec
  obtain ⟨_, _, _, hwritten⟩ := run.written_eq
  obtain ⟨_, _, _, _, _, hrecord⟩ := hcommit.record
  have hhandlers : run.concluded.1.handlers = s.handlers := by
    rw [hconcluded, hrecord, Answering.secured, hwritten]
    rfl
  have hpositions : run.concluded.1.sectionHandlers = run.placed.map Planned.handler := by
    rw [hconcluded, hrecord]
  have hpending : run.concluded.1.pending = s.pending := by
    rw [hconcluded, hrecord, Answering.secured, hwritten]
    rfl
  refine ⟨fun i n hn hrej ↦ ?_, fun p hp i o ho hrej ↦ ?_⟩
  · rw [run.negotiated_concluded] at hn
    obtain ⟨q, r, o, a, ho, -, hrow⟩ := run.exists_row hn
    have harej : a.isRejected = false := by
      rcases run.row_cases hrow with ⟨-, rfl⟩ | ⟨_, _, _, harej, -⟩
      · cases hrej
      · exact harej
    -- the handler that has answered the section handles its kind
    obtain ⟨-, handler, hhandler, hanswers⟩ := hrow.answers.1.answers harej
    rw [positionAt, hpositions, List.getElem?_map, hrow.placed, Option.map_some, Option.join_some,
      run.kind_outcome hn ho, hanswers.handler_kind]
    exact Handles.congr (s := s) ⟨handler, hhandler, rfl⟩ hhandlers
  · rw [hpending] at hp
    exact (h.offered p hp i o ho hrej).congr hhandlers

/-! ## Applying an answer -/

theorem offered_of_settleSection {pending : PendingOffer} {answer : Description} {i : Nat}
    {o a : Section} {n : NegotiatedMedia} {x : Option (EndpointId × Setup)}
    (h : s.settleSection pending answer i o a = .ok (n, x)) (hrej : n.rejected = false) :
    o.isRejected = false := by
  rw [settleSection] at h
  split at h
  · split at h
    · cases h
      cases hrej
    · rename_i hneither
      rw [Bool.or_eq_true, not_or, Bool.not_eq_true] at hneither
      exact hneither.1
  · cases h
    cases hrej

theorem Staffed.processAnswer (h : s.Staffed) (hs : s.Sound) (ports : PortAllocator)
    (answer : Description) : (s.processAnswer ports answer).session.Staffed := by
  rcases processAnswer_cases hs.hasPem ports answer with ⟨e, hr⟩ | ⟨-, p, hp, run, hr⟩
  · rw [hr]
    exact h
  rw [hr]
  obtain ⟨s₁, state, hcommit, -, hconcluded⟩ := run.concluded_spec hs.exclusive ports
  obtain ⟨_, _, _, _, _, hrecord⟩ := hcommit.record
  have hhandlers : (run.concluded ports).1.handlers = s.handlers := by
    rw [hconcluded, hrecord]
    rfl
  have hpositions : (run.concluded ports).1.sectionHandlers = p.handlers := by
    rw [hconcluded, hrecord]
  have hpending : (run.concluded ports).1.pending = none := by
    rw [hconcluded, hrecord]
    rfl
  refine ⟨fun i n hn hrej ↦ ?_, fun p' hp' ↦ absurd (hpending.symm.trans hp') nofun⟩
  rw [run.negotiated_concluded hs.exclusive] at hn
  obtain ⟨pair, x, hpair, hsettle⟩ := (settleSections_spec run.settle_eq).2.1 i n hn
  rw [Nat.zero_add] at hsettle
  have hkind : n.kind = pair.1.kind := by
    rcases settleSection_cases hsettle with ⟨rfl, -⟩ | ⟨id, codec, setup, -, -, rfl, -⟩
    · cases hrej
    · rfl
  rw [positionAt, hpositions, hkind]
  exact (h.offered p hp i pair.1 (List.getElem?_zip_eq_some.mp hpair).1
    (offered_of_settleSection hsettle hrej)).congr hhandlers

/-! ## Every session -/

theorem Staffed.close (h : s.Staffed) (ports : PortAllocator) :
    (s.close ports).session.Staffed := by
  rw [Session.close]
  split
  · exact h
  · refine ⟨fun i n hn hrej ↦ ?_, fun p hp ↦ by cases hp⟩
    obtain ⟨n₀, hn₀, rfl⟩ := Option.map_eq_some_iff.mp (List.getElem?_map.symm.trans hn)
    exact h.accepted i n₀ hn₀ hrej

/-- **Every call keeps the invariant.** -/
theorem Staffed.call (h : s.Staffed) (hs : s.Sound) (ports : PortAllocator) (c : SessionCall) :
    (s.call ports c).session.Staffed := by
  by_cases hbetween : c.isBetween = true
  · exact h.frame (sameExchange_call s ports hbetween).1
  cases c with
  | offer => exact h.generateOffer hs ports
  | answer remote => exact h.processOffer hs ports remote
  | accept answer => exact h.processAnswer hs ports answer
  | close => exact h.close ports
  | _ => exact absurd rfl hbetween

theorem Reachable.staffed (h : s.Reachable) : s.Staffed := by
  induction h with
  | build hbuild =>
    obtain ⟨handlers, -, rfl⟩ := build_eq hbuild
    exact ⟨fun _ _ hn ↦ absurd hn nofun, fun _ hp ↦ absurd hp nofun⟩
  | call ports c hs ih => exact ih.call hs.sound ports c
  | rtcp buffer _ ih => exact ih.frame ⟨rfl, rfl, rfl, rfl, rfl⟩

end Session

end OfferAnswer
