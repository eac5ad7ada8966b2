import Mathlib.Data.List.Nodup
import Mathlib.Data.List.Perm.Subperm
import Mathlib.Order.Bounds.Defs
import OfferAnswer.Proofs.Handler.Offers
import OfferAnswer.Proofs.Mid
import OfferAnswer.Session.Offer

/-!
# Planning new sections

A section that is new in an offer gets an identifier that no other has, and the body that its
handler makes. Neither can fail. There is always a free index among one more than there are
sections, and the identifiers of indices are different until the numerals outgrow them: up to
`Mid.indexBound` sections, no identifier is given twice.
-/

namespace OfferAnswer.Session

variable {s : Session} {mids : List Mid} {q : Planned}

/-! ## Identifiers -/

theorem nodup_indices {n : Nat} (h : n ≤ Mid.indexBound) :
    ((List.range n).map Mid.ofIndex).Nodup := by
  refine List.Nodup.map_on (fun i hi j hj hij ↦ ?_) List.nodup_range
  exact (Mid.ofIndex_inj (Nat.lt_of_lt_of_le (List.mem_range.mp hi) h)
    (Nat.lt_of_lt_of_le (List.mem_range.mp hj) h)).mp hij

/-- Of one more index than there are sections, one is free. -/
theorem freeMid?_ne_none (h : mids.length < Mid.indexBound) : freeMid? mids ≠ none := by
  intro hnone
  have hsubset : (List.range (mids.length + 1)).map Mid.ofIndex ⊆ mids := by
    intro m hm
    have htaken := List.find?_eq_none.mp hnone m hm
    rw [Bool.not_eq_true', Bool.not_eq_false] at htaken
    exact List.contains_iff_mem.mp htaken
  have hlen := (List.subperm_of_subset (nodup_indices h) hsubset).length_le
  rw [List.length_map, List.length_range] at hlen
  exact Nat.not_succ_le_self _ hlen

theorem exists_freeMid? (h : mids.length < Mid.indexBound) :
    ∃ i, IsLeast {i | Mid.ofIndex i ∉ mids} i ∧ freeMid? mids = some (.ofIndex i) := by
  obtain ⟨m, hm⟩ := Option.ne_none_iff_exists'.mp (freeMid?_ne_none h)
  have hfind := hm
  rw [freeMid?, List.find?_map, Option.map_eq_some_iff] at hfind
  obtain ⟨i, hi, rfl⟩ := hfind
  obtain ⟨hfree, -, htaken⟩ := List.find?_range_eq_some.mp hi
  have hnew : Mid.ofIndex i ∉ mids := by simpa using hfree
  refine ⟨i, ⟨hnew, fun j hj ↦ Nat.le_of_not_lt fun hlt ↦ hj ?_⟩, hm⟩
  simpa using htaken j hlt

theorem freeMid_notMem (s : Session) (h : mids.length < Mid.indexBound) :
    s.freeMid mids ∉ mids := by
  obtain ⟨i, hi, hm⟩ := exists_freeMid? h
  rw [freeMid, hm]
  exact hi.1

theorem named_freeMid (s : Session) (mids : List Mid) : (s.freeMid mids).Named := by
  rw [freeMid]
  cases hm : freeMid? mids with
  | some m =>
    obtain ⟨i, -, rfl⟩ := List.mem_map.mp (List.mem_of_find?_eq_some hm)
    exact Mid.named_ofIndex i
  | none =>
    refine ⟨(s.entropy.text 3).1, fun hempty ↦ ?_, rfl⟩
    rw [← String.toList_eq_nil_iff, Entropy.text, String.toList_ofList] at hempty
    cases hempty

/-! ## New sections -/

/-- What is planned for a section that a handler offers. -/
structure PlansOffer (s : Session) (q : Planned) (h : MediaHandler) : Prop where
  /-- The handler is the one that the plan names. -/
  handler_eq : s.handler? q.handler = some h
  /-- The identifier is made from a name. -/
  named : q.mid.Named
  /-- The handler offers the body. -/
  offers : h.Offers q.body
  /-- No single-valued key stands twice in it. -/
  tidy : q.body.Tidy
  /-- Every attribute of it has a key. -/
  keyed : q.body.Keyed
  /-- It is not rejected. -/
  accepted : q.body.isRejected = false

theorem offerMux_spec {h : MediaHandler} (hq : s.PlansOffer q h) :
    s.PlansOffer (s.offerMux q) h ∧ (s.offerMux q).mid = q.mid := by
  rw [offerMux]
  split
  · refine ⟨⟨hq.handler_eq, hq.named, hq.offers.congr rfl rfl rfl ?_, hq.tidy.add _,
      hq.keyed.add (show "rtcp-mux" ≠ "" by decide), hq.accepted⟩, rfl⟩
    exact Section.attrsOf_add_of_ne (show "rtcp-mux" ≠ "rtpmap" by decide) q.body
  · exact ⟨hq, rfl⟩

/-- **New sections can be planned**: one for every handler, and no identifier is given twice. -/
theorem planNew_ok (s : Session) (hs : List (MediaHandler × Nat))
    (hmade : ∀ x ∈ hs, x.1.IsMade ∧ s.handler? (some x.2) = some x.1)
    (hnew : ∀ x ∈ hs, some x.2 ∉ s.sectionHandlers) (plan : List Planned) :
    ∃ added, s.planNew hs plan = .ok (plan ++ added) ∧ added.length = hs.length ∧
      (∀ q ∈ added, ∃ h, s.PlansOffer q h) ∧
      (plan.length + hs.length ≤ Mid.indexBound → (plan.map (·.mid)).Nodup →
        ((plan ++ added).map (·.mid)).Nodup) := by
  induction hs generalizing plan with
  | nil =>
    refine ⟨[], ?_, rfl, fun _ hq ↦ absurd hq List.not_mem_nil, fun _ hnodup ↦ ?_⟩
    · rw [List.append_nil]
      rfl
    · rwa [List.append_nil]
  | cons x hs ih =>
    obtain ⟨hx, hhandler⟩ := hmade x List.mem_cons_self
    obtain ⟨o, ho, hoffers, htidy, hkeyed, hrej⟩ := MediaHandler.offer_ok hx none
    let q : Planned := ⟨s.freeMid (plan.map (·.mid)), some x.2, o⟩
    obtain ⟨added, hplan, hlen, hadded, hnodup⟩ := ih
      (fun y hy ↦ hmade y (List.mem_cons_of_mem x hy))
      (fun y hy ↦ hnew y (List.mem_cons_of_mem x hy)) (plan ++ [q])
    rw [List.append_assoc, List.singleton_append] at hplan hnodup
    refine ⟨q :: added, ?_, congrArg (· + 1) hlen, fun r hr ↦ ?_, fun hbound hmids ↦ ?_⟩
    · rw [planNew, if_neg (by simpa using hnew x List.mem_cons_self), ho]
      exact hplan
    · rcases List.mem_cons.mp hr with rfl | hr
      · exact ⟨x.1, hhandler, named_freeMid s _, hoffers, htidy, hkeyed, hrej⟩
      · exact hadded r hr
    · rw [List.length_cons] at hbound
      refine hnodup ?_ ?_
      · rw [List.length_append, List.length_singleton]
        omega
      · -- the new identifier is free, and the ones before it are distinct by assumption
        have hfree : q.mid ∉ plan.map (·.mid) := freeMid_notMem s (by
          rw [List.length_map]
          omega)
        rw [List.map_append, List.nodup_append]
        refine ⟨hmids, List.nodup_singleton _, fun m hm m' hm' heq ↦ hfree ?_⟩
        rw [List.map_singleton, List.mem_singleton] at hm'
        rwa [← hm', ← heq]

/-- **The first offer can be planned.** -/
theorem planOffer_ok (hmade : ∀ h ∈ s.handlers, h.IsMade) (hnegotiated : s.negotiated = [])
    (hsections : s.sectionHandlers = []) :
    ∃ plan, s.planOffer = .ok plan ∧ plan.length = s.handlers.length ∧
      (∀ q ∈ plan, ∃ h, s.PlansOffer q h) ∧
      (s.handlers.length ≤ Mid.indexBound → (plan.map (·.mid)).Nodup) := by
  obtain ⟨added, hplan, hlen, hadded, hnodup⟩ := planNew_ok s s.handlers.zipIdx
    (fun x hx ↦ by
      have hget := List.mem_zipIdx_iff_getElem?.mp hx
      exact ⟨hmade x.1 (List.mem_of_getElem? hget), hget⟩)
    (fun x _ ↦ by rw [hsections]; exact List.not_mem_nil) []
  have hrepeated : s.planRepeated 0 s.negotiated = .ok [] := by
    rw [hnegotiated]
    rfl
  rw [List.nil_append] at hplan hnodup
  rw [List.length_zipIdx] at hlen
  refine ⟨added.map s.offerMux, ?_, (List.length_map _).trans hlen, fun r hr ↦ ?_, fun hbound ↦ ?_⟩
  · rw [planOffer, hrepeated]
    dsimp only
    rw [hplan]
    rfl
  · obtain ⟨q, hq, rfl⟩ := List.mem_map.mp hr
    obtain ⟨h, hh⟩ := hadded q hq
    exact ⟨h, (offerMux_spec hh).1⟩
  · -- offering to share a port with RTCP changes no identifier
    have hmids : (added.map s.offerMux).map (·.mid) = added.map (·.mid) := by
      rw [List.map_map]
      refine List.map_congr_left fun q hq ↦ ?_
      obtain ⟨h, hh⟩ := hadded q hq
      exact (offerMux_spec hh).2
    rw [hmids]
    refine hnodup ?_ List.nodup_nil
    rwa [List.length_nil, Nat.zero_add, List.length_zipIdx]

end OfferAnswer.Session
