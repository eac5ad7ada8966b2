import OfferAnswer.Proofs.Session.Plans
import OfferAnswer.Proofs.Session.Positional

/-!
# The names of an offer

Between an offer and its answer a session remembers a section in two places: its endpoint has the
identifier, and the pending offer has the text of it. They go together only if the text is read back
as the identifier, and if an offer that is made again gives every section the name it had.

Both hold. Identifiers come from texts or from indices, and those are `Mid.Legible`. And the names
of an offer, `Session.offerMids`, are settled by the negotiated sections and the handlers alone, as
long as there are indices left to name sections with. After that names are drawn at random, and the
next offer would draw others.
-/

namespace OfferAnswer

/-- The names of a remote description can be written down and read back. -/
theorem Session.legible_midAt (remote : Description) (i : Nat) : (midAt remote i).Legible := by
  rw [midAt, Description.midOf?]
  cases remote.sections[i]? with
  | none => exact (Mid.named_ofIndex i).legible
  | some o => exact Mid.ofText_text_offered i o

namespace Session

variable {s : Session}

/-! ## Names to come -/

/-- The name of the next new section. -/
def newMid (mids : List Mid) : Mid := (freeMid? mids).getD (.ofIndex 0)

/-- As long as there are indices, no name is drawn. -/
theorem freeMid_eq_newMid (s : Session) {mids : List Mid} (h : mids.length < Mid.indexBound) :
    s.freeMid mids = newMid mids := by
  obtain ⟨m, hm⟩ := Option.ne_none_iff_exists'.mp (freeMid?_ne_none h)
  rw [freeMid, newMid, hm]
  rfl

/-- **A new section is named by the least index that is free.** This holds whatever the names of the
other sections are, and whatever would be drawn at random. It rests on two laws of names: below the
bound the names of indices are different, and a name that was made from a text is read back from
the text that it is written as. -/
theorem named_by_least_index (s : Session) {mids : List Mid} (h : mids.length < Mid.indexBound) :
    (∃ i, IsLeast {i | Mid.ofIndex i ∉ mids} i ∧ freeMid? mids = some (.ofIndex i) ∧
        s.freeMid mids = .ofIndex i) ∧
      (∀ i < Mid.indexBound, ∀ j < Mid.indexBound, Mid.ofIndex i = Mid.ofIndex j → i = j) ∧
      ∀ name, Mid.ofText (Mid.ofText name).text = Mid.ofText name := by
  refine ⟨?_, fun i hi j hj ↦ (Mid.ofIndex_inj hi hj).mp, Mid.ofText_text_ofText⟩
  obtain ⟨i, hi, hm⟩ := exists_freeMid? h
  refine ⟨i, hi, hm, ?_⟩
  rw [freeMid, hm, Option.getD_some]

/-- Sections that are named by indices and by words, one of them twice. -/
def mixedNames : List Mid := [.ofText "1", .ofText "audio", .ofText "0", .ofText "3", .ofText "1"]

theorem mixedNames_named_by_least_index :
    let s := create {} [] ⟨fun i ↦ i, 0⟩
    mixedNames.length < Mid.indexBound ∧ IsLeast {i | Mid.ofIndex i ∉ mixedNames} 2 ∧
      s.freeMid mixedNames = .ofIndex 2 := by
  intro s
  have hfew : mixedNames.length < Mid.indexBound := by decide
  obtain ⟨⟨i, hi, -, hname⟩, hinj, -⟩ := named_by_least_index s hfew
  have htwo : Mid.ofIndex 2 ∉ mixedNames := by decide +kernel
  have hle : i ≤ 2 := hi.2 htwo
  -- the search ends at 2, and no other index has that name
  have hfree : s.freeMid mixedNames = .ofIndex 2 := by decide +kernel
  obtain rfl : i = 2 := hinj i (Nat.lt_of_le_of_lt hle (by decide)) 2 (by decide)
    (hname.symm.trans hfree)
  exact ⟨hfew, hi, hname⟩

/-- The names after handlers that have no section got one. -/
def extendMids (taken : List (Option Nat)) : List (MediaHandler × Nat) → List Mid → List Mid
  | [], mids => mids
  | x :: xs, mids =>
    if taken.contains (some x.2) then extendMids taken xs mids
    else extendMids taken xs (mids ++ [newMid mids])

/-- The names of the sections of the next offer. -/
def offerMids (s : Session) : List Mid :=
  extendMids s.sectionHandlers s.handlers.zipIdx (s.negotiated.map (·.mid))

theorem subset_extendMids (taken : List (Option Nat)) (xs : List (MediaHandler × Nat))
    (mids : List Mid) : mids ⊆ extendMids taken xs mids := by
  induction xs generalizing mids with
  | nil => exact List.Subset.refl mids
  | cons x xs ih =>
    rw [extendMids]
    split
    · exact ih mids
    · exact List.Subset.trans (List.subset_append_left mids _) (ih _)

theorem subset_offerMids (s : Session) : s.negotiated.map (·.mid) ⊆ s.offerMids :=
  subset_extendMids _ _ _

/-- Whether there are indices to name every section of the next offer with. -/
def NamesSuffice (s : Session) : Prop :=
  s.negotiated.length + s.handlers.length ≤ Mid.indexBound

/-! ## Names of a plan -/

theorem planNew_mids {xs : List (MediaHandler × Nat)} {plan plan' : List Planned}
    (h : s.planNew xs plan = .ok plan') (hfew : plan.length + xs.length ≤ Mid.indexBound) :
    plan'.map (·.mid) = extendMids s.sectionHandlers xs (plan.map (·.mid)) := by
  induction xs generalizing plan with
  | nil =>
    cases h
    rfl
  | cons x xs ih =>
    rw [List.length_cons] at hfew
    rw [planNew] at h
    rw [extendMids]
    split at h
    · rename_i htaken
      rw [if_pos htaken]
      exact ih h (by omega)
    · rename_i htaken
      rw [if_neg htaken]
      split at h
      · cases h
      · have hname : s.freeMid (plan.map (·.mid)) = newMid (plan.map (·.mid)) :=
          freeMid_eq_newMid s (by rw [List.length_map]; omega)
        have hnext := ih h (by simp only [List.length_append, List.length_singleton]; omega)
        rw [hnext, List.map_append, List.map_singleton, hname]

theorem planRepeated_mids {i : Nat} {ns : List NegotiatedMedia} {plan : List Planned}
    (h : s.planRepeated i ns = .ok plan) : plan.map (·.mid) = ns.map (·.mid) := by
  obtain ⟨hlen, hget⟩ := planRepeated_spec h
  refine List.ext_getElem? fun j ↦ ?_
  rw [List.getElem?_map, List.getElem?_map]
  cases hq : plan[j]? with
  | none =>
    have hj : ns[j]? = none := by
      rw [List.getElem?_eq_none_iff] at hq ⊢
      exact hlen ▸ hq
    rw [hj]
    rfl
  | some q =>
    obtain ⟨n, m, hn, -, rfl⟩ := hget j q hq
    rw [hn]
    rfl

/-- **The names of an offer are settled before it is made.** -/
theorem planOffer_mids {plan : List Planned} (h : s.planOffer = .ok plan) (hfew : s.NamesSuffice) :
    plan.map (·.mid) = s.offerMids := by
  obtain ⟨repeats, added, hrepeats, hnew, rfl⟩ := planOffer_spec h
  have hall := planNew_mids hnew (by
    rw [(planRepeated_spec hrepeats).1, List.length_zipIdx]
    exact hfew)
  rw [List.map_map, offerMids, ← planRepeated_mids hrepeats, ← hall]
  exact List.map_congr_left fun q _ ↦ mid_offerMux s q

theorem planOffer_legible {plan : List Planned} (h : s.planOffer = .ok plan)
    (hlegible : ∀ n ∈ s.negotiated, n.mid.Legible) : ∀ q ∈ plan, q.mid.Legible := by
  intro q hq
  obtain ⟨i, hi⟩ := List.mem_iff_getElem?.mp hq
  obtain ⟨q₀, hdraft, rfl⟩ := drafted_of_planOffer h hi
  rw [mid_offerMux]
  cases hdraft with
  | repeated hn _ => exact hlegible _ (List.mem_of_getElem? hn)
  | added mids _ _ _ => exact (named_freeMid s mids).legible

end Session

/-! ## Names of an offer -/

namespace Offering

open Session

variable {s : Session} {run : Offering s} {i : Nat} {q r : Planned} {o : Section}

theorem Row.mid?_eq (hrow : run.Row i q r o) (hlegible : ∀ n ∈ s.negotiated, n.mid.Legible) :
    o.mid? = some q.mid := by
  have hq := List.mem_of_getElem? hrow.planned
  have hmid : q.mid.Legible := planOffer_legible run.plan_eq hlegible q hq
  have htidy : q.body.Tidy := (unsigned_planOffer run.plan_eq q hq).tidy
  have hbody : r.body.Tidy := by
    cases hrow.fate with
    | rejected _ => exact htidy
    | carried _ _ _ => exact Placement.tidy_writePorts htidy _
    | refused _ => exact htidy
  obtain ⟨ssrcs, e, rfl⟩ := hrow.written
  rw [mid?_decorate hbody, hrow.fate.mid_eq, hmid]

theorem mids_sections (run : Offering s) (hlegible : ∀ n ∈ s.negotiated, n.mid.Legible) :
    run.offer.sections.map Section.mid? = run.plan.map fun q ↦ some q.mid := by
  refine List.ext_getElem? fun i ↦ ?_
  rw [List.getElem?_map, List.getElem?_map]
  cases ho : run.offer.sections[i]? with
  | none =>
    have hplan : run.plan[i]? = none := by
      rw [List.getElem?_eq_none_iff] at ho ⊢
      exact run.length_sections ▸ ho
    rw [hplan]
    rfl
  | some o =>
    obtain ⟨q, r, hrow⟩ := run.exists_row ho
    rw [hrow.planned, Option.map_some, Option.map_some, hrow.mid?_eq hlegible]

/-- **An offer says its names**, in the order of its sections. -/
theorem mids_offer (run : Offering s) (hlegible : ∀ n ∈ s.negotiated, n.mid.Legible)
    (hfew : s.NamesSuffice) : run.offer.sections.map Section.mid? = s.offerMids.map some := by
  rw [run.mids_sections hlegible, ← planOffer_mids run.plan_eq hfew, List.map_map]
  rfl

end Offering

end OfferAnswer
