import OfferAnswer.Proofs.Handler.Unsigned
import OfferAnswer.Session.Offer

/-!
# What is in a plan

An offer is planned in two parts: the sections that are negotiated, each at its index, and after
them one section for every handler that has none. `Session.Drafted` says how a section gets into a
plan, and `Session.drafted_of_planOffer` that there is no other way. The lemmas here also say what a
negotiated section is repeated as, and when the second part is empty.
-/

namespace OfferAnswer.Session

variable {s : Session}

/-! ## Negotiated sections -/

/-- The handler of the negotiated section at an index. -/
def positionAt (s : Session) (i : Nat) : Option Nat := (s.sectionHandlers[i]?).join

/-- The section at an index of our last description. -/
def lastAt (s : Session) (i : Nat) : Option Section := s.ours.bind fun d ↦ d.sections[i]?

theorem planRepeated_cons (s : Session) (i : Nat) (n : NegotiatedMedia)
    (ns : List NegotiatedMedia) :
    s.planRepeated i (n :: ns) = match s.repeated n (s.positionAt i) (s.lastAt i) with
      | .error e => .error e
      | .ok m => (s.planRepeated (i + 1) ns).map (⟨n.mid, s.positionAt i, m⟩ :: ·) := rfl

theorem planRepeated_cons_eq_ok {i : Nat} {n : NegotiatedMedia} {ns : List NegotiatedMedia}
    {plan : List Planned} : s.planRepeated i (n :: ns) = .ok plan ↔ ∃ m rest,
      s.repeated n (s.positionAt i) (s.lastAt i) = .ok m ∧ s.planRepeated (i + 1) ns = .ok rest ∧
        ⟨n.mid, s.positionAt i, m⟩ :: rest = plan := by
  rw [planRepeated_cons]
  cases s.repeated n (s.positionAt i) (s.lastAt i) with
  | error e => simp
  | ok m => cases s.planRepeated (i + 1) ns <;> simp [Except.map]

/-- What is planned for a negotiated section has its identifier, its handler and the section to
repeat. -/
theorem planRepeated_spec {i : Nat} {ns : List NegotiatedMedia} {plan : List Planned}
    (h : s.planRepeated i ns = .ok plan) : plan.length = ns.length ∧
      ∀ (j : Nat) q, plan[j]? = some q → ∃ n m, ns[j]? = some n ∧
        s.repeated n (s.positionAt (i + j)) (s.lastAt (i + j)) = .ok m ∧
          q = ⟨n.mid, s.positionAt (i + j), m⟩ := by
  induction ns generalizing i plan with
  | nil =>
    cases h
    simp
  | cons n ns ih =>
    obtain ⟨m, rest, hone, hrest, rfl⟩ := planRepeated_cons_eq_ok.mp h
    obtain ⟨hlen, hget⟩ := ih hrest
    refine ⟨by simp [hlen], fun j q hq ↦ ?_⟩
    cases j with
    | zero =>
      cases hq
      exact ⟨n, m, rfl, hone, rfl⟩
    | succ j =>
      obtain ⟨n', m', hn', hm', rfl⟩ := hget j q hq
      rw [Nat.add_right_comm] at hm' ⊢
      exact ⟨n', m', hn', hm', rfl⟩

theorem unsigned_repeated {n : NegotiatedMedia} {position : Option Nat} {previous : Option Section}
    {m : Section} (h : s.repeated n position previous = .ok m) : m.Unsigned := by
  unfold repeated at h
  dsimp only at h
  split at h
  · exact MediaHandler.unsigned_offer h
  · cases h
    exact Section.unsigned_rejected _
  · cases h
    exact Section.unsigned_of_nil rfl

/-! ## New sections -/

/-- New sections are appended under names that are free, each as a handler offers it, and then no
handler is without. -/
theorem planNew_spec {hs : List (MediaHandler × Nat)} {plan plan' : List Planned}
    (h : s.planNew hs plan = .ok plan') : ∃ added, plan' = plan ++ added ∧
      (∀ q ∈ added, ∃ x ∈ hs, ∃ mids m, x.1.offer x.1.kind none = .ok m ∧
        q = ⟨s.freeMid mids, some x.2, m⟩) ∧
      ∀ x ∈ hs, some x.2 ∈ s.sectionHandlers ∨ some x.2 ∈ added.map (·.handler) := by
  induction hs generalizing plan with
  | nil =>
    cases h
    exact ⟨[], by simp⟩
  | cons x hs ih =>
    rw [planNew] at h
    split at h
    · -- the handler has a section
      rename_i htaken
      obtain ⟨added, hplan', hadded, htakes⟩ := ih h
      refine ⟨added, hplan', ?_, ?_⟩
      · intro q hq
        obtain ⟨y, hy, hbody⟩ := hadded q hq
        exact ⟨y, List.mem_cons_of_mem x hy, hbody⟩
      · intro y hy
        rcases List.mem_cons.mp hy with rfl | hy
        · exact Or.inl (List.contains_iff_mem.mp htaken)
        · exact htakes y hy
    · -- it has none, and the one it gets stands in front of those that follow
      cases hoffer : x.1.offer x.1.kind none with
      | error e => simp [hoffer] at h
      | ok m =>
        rw [hoffer] at h
        obtain ⟨added, hplan', hadded, htakes⟩ := ih h
        refine ⟨⟨s.freeMid (plan.map (·.mid)), some x.2, m⟩ :: added, by simp [hplan'], ?_, ?_⟩
        · intro q hq
          rcases List.mem_cons.mp hq with rfl | hq
          · exact ⟨x, List.mem_cons_self, _, m, hoffer, rfl⟩
          · obtain ⟨y, hy, hbody⟩ := hadded q hq
            exact ⟨y, List.mem_cons_of_mem x hy, hbody⟩
        · intro y hy
          rcases List.mem_cons.mp hy with rfl | hy
          · exact Or.inr (by simp)
          · exact (htakes y hy).imp_right fun hmem ↦ List.mem_cons_of_mem _ hmem

theorem planNew_eq_self {hs : List (MediaHandler × Nat)}
    (h : ∀ x ∈ hs, some x.2 ∈ s.sectionHandlers) (plan : List Planned) :
    s.planNew hs plan = .ok plan := by
  induction hs with
  | nil => rfl
  | cons x hs ih =>
    have htaken := List.contains_iff_mem.mpr (h x List.mem_cons_self)
    rw [planNew, if_pos htaken]
    exact ih fun y hy ↦ h y (List.mem_cons_of_mem x hy)

/-! ## Offers -/

theorem mid_offerMux (s : Session) (q : Planned) : (s.offerMux q).mid = q.mid := by
  rw [offerMux]
  split <;> rfl

theorem handler_offerMux (s : Session) (q : Planned) : (s.offerMux q).handler = q.handler := by
  rw [offerMux]
  split <;> rfl

theorem planOffer_spec {plan : List Planned} (h : s.planOffer = .ok plan) : ∃ repeats added,
    s.planRepeated 0 s.negotiated = .ok repeats ∧
      s.planNew s.handlers.zipIdx repeats = .ok (repeats ++ added) ∧
        plan = (repeats ++ added).map s.offerMux := by
  rw [planOffer] at h
  cases hrepeats : s.planRepeated 0 s.negotiated with
  | error e => simp [hrepeats] at h
  | ok repeats =>
    rw [hrepeats] at h
    dsimp only at h
    cases hnew : s.planNew s.handlers.zipIdx repeats with
    | error e => simp [hnew, Except.map] at h
    | ok whole =>
      rw [hnew] at h
      cases h
      obtain ⟨added, rfl, -⟩ := planNew_spec hnew
      exact ⟨repeats, added, rfl, hnew, rfl⟩

/-- How a section gets into a plan for an index, before it says that its port is shared. -/
inductive Drafted (s : Session) (i : Nat) : Planned → Prop
  /-- It is negotiated, and repeated. -/
  | repeated {n : NegotiatedMedia} {m : Section} (hn : s.negotiated[i]? = some n)
      (hm : s.repeated n (s.positionAt i) (s.lastAt i) = .ok m) :
      Drafted s i ⟨n.mid, s.positionAt i, m⟩
  /-- It is new, and as its handler offers it. -/
  | added {h : MediaHandler} {j : Nat} {m : Section} (mids : List Mid)
      (hi : s.negotiated.length ≤ i) (hj : s.handlers[j]? = some h)
      (hm : h.offer h.kind none = .ok m) : Drafted s i ⟨s.freeMid mids, some j, m⟩

/-- **All that is planned** is repeated or new. -/
theorem drafted_of_planOffer {plan : List Planned} (h : s.planOffer = .ok plan) {i : Nat}
    {q : Planned} (hq : plan[i]? = some q) : ∃ q₀, s.Drafted i q₀ ∧ q = s.offerMux q₀ := by
  obtain ⟨repeats, added, hrepeats, hnew, rfl⟩ := planOffer_spec h
  obtain ⟨hlen, hget⟩ := planRepeated_spec hrepeats
  obtain ⟨added', heq, hadded, -⟩ := planNew_spec hnew
  obtain rfl : added = added' := List.append_cancel_left heq
  obtain ⟨q₀, hq₀, rfl⟩ := Option.map_eq_some_iff.mp (List.getElem?_map.symm.trans hq)
  refine ⟨q₀, ?_, rfl⟩
  rcases Nat.lt_or_ge i repeats.length with hi | hi
  · rw [List.getElem?_append_left hi] at hq₀
    obtain ⟨n, m, hn, hm, rfl⟩ := hget i q₀ hq₀
    rw [Nat.zero_add] at hm ⊢
    exact .repeated hn hm
  · rw [List.getElem?_append_right hi] at hq₀
    obtain ⟨x, hx, mids, m, hm, rfl⟩ := hadded q₀ (List.mem_of_getElem? hq₀)
    exact .added mids (hlen ▸ hi) (List.mem_zipIdx_iff_getElem?.mp hx) hm

theorem Drafted.unsigned {i : Nat} {q : Planned} (h : s.Drafted i q) : q.body.Unsigned := by
  cases h with
  | repeated _ hm => exact unsigned_repeated hm
  | added _ _ _ hm => exact MediaHandler.unsigned_offer hm

theorem unsigned_planOffer {plan : List Planned} (h : s.planOffer = .ok plan) :
    ∀ q ∈ plan, q.body.Unsigned := by
  intro q hq
  obtain ⟨i, hi⟩ := List.mem_iff_getElem?.mp hq
  obtain ⟨q₀, hdraft, rfl⟩ := drafted_of_planOffer h hi
  rw [offerMux]
  split
  · exact hdraft.unsigned.add (show Section.IsNeutral "rtcp-mux" by decide)
  · exact hdraft.unsigned

/-- A first offer has what the handlers offer, and leaves none of them out. -/
theorem planOffer_new {plan : List Planned} (h : s.planOffer = .ok plan) (hnew : s.negotiated = [])
    (hunplaced : s.sectionHandlers = []) :
    (∀ q ∈ plan, ∃ q₀ handler, q = s.offerMux q₀ ∧ s.handler? q₀.handler = some handler ∧
      handler.offer handler.kind none = .ok q₀.body) ∧
      ∀ i < s.handlers.length, some i ∈ plan.map (·.handler) := by
  constructor
  · intro q hq
    obtain ⟨i, hi⟩ := List.mem_iff_getElem?.mp hq
    obtain ⟨q₀, hdraft, rfl⟩ := drafted_of_planOffer h hi
    cases hdraft with
    | repeated hn _ =>
      rw [hnew] at hn
      cases hn
    | added _ _ hj hm => exact ⟨_, _, rfl, hj, hm⟩
  · intro i hi
    obtain ⟨repeats, added, hrepeats, hadded, rfl⟩ := planOffer_spec h
    obtain ⟨added', heq, -, hplaced⟩ := planNew_spec hadded
    obtain rfl : added = added' := List.append_cancel_left heq
    have hx : (s.handlers[i], i) ∈ s.handlers.zipIdx :=
      List.mem_zipIdx_iff_getElem?.mpr (List.getElem?_eq_getElem hi)
    rcases hplaced _ hx with htaken | hmem
    · rw [hunplaced] at htaken
      cases htaken
    · have hsame : ((repeats ++ added).map s.offerMux).map (·.handler) =
          (repeats ++ added).map (·.handler) := by
        simp [Function.comp_def, handler_offerMux]
      rw [hsame, List.map_append]
      exact List.mem_append_right _ hmem

theorem length_le_of_planOffer {plan : List Planned} (h : s.planOffer = .ok plan) :
    s.negotiated.length ≤ plan.length := by
  obtain ⟨repeats, added, hrepeats, -, rfl⟩ := planOffer_spec h
  have hlen := (planRepeated_spec hrepeats).1
  simp only [List.length_map, List.length_append]
  omega

end OfferAnswer.Session
