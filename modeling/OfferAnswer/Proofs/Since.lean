import Mathlib.Data.List.Induction

/-!
# What a history leaves standing

A history is a list of events, oldest first. Much of what holds after it is of one form: some event
did it, and no later event undid it. `Since` is that form, for any two relations that say what an
event does and undoes after the events before it. It is handled from the end: one more event does
it anew, or leaves it standing (`since_snoc`).
-/

namespace OfferAnswer

variable {α : Type} {did undid : List α → α → Prop} {h : List α}

/-- Some event of a history did something, and no later event undid it. Each event is judged by
the history before it. -/
def Since (did undid : List α → α → Prop) (h : List α) : Prop :=
  ∃ past x later, h = past ++ x :: later ∧ did past x ∧
    ∀ mid y rest, later = mid ++ y :: rest → ¬undid (past ++ x :: mid) y

theorem not_since_nil : ¬Since did undid [] := by
  rintro ⟨past, x, later, hnil, _⟩
  exact List.append_ne_nil_of_right_ne_nil past (List.cons_ne_nil x later) hnil.symm

/-- What undoes it may be said of each later event alone. -/
theorem since_iff {undid : α → Prop} : Since did (fun _ x ↦ undid x) h ↔
    ∃ past x later, h = past ++ x :: later ∧ did past x ∧ ∀ y ∈ later, ¬undid y := by
  refine exists_congr fun past ↦ exists_congr fun x ↦ exists_congr fun later ↦
    and_congr_right fun _ ↦ and_congr_right fun _ ↦ ⟨fun hkept y hy ↦ ?_, ?_⟩
  · obtain ⟨mid, rest, rfl⟩ := List.append_of_mem hy
    exact hkept mid y rest rfl
  · rintro hkept mid y rest rfl
    exact hkept y (List.mem_append_right mid List.mem_cons_self)

/-- An event does it anew, or leaves it standing. -/
theorem since_snoc {x : α} :
    Since did undid (h ++ [x]) ↔ did h x ∨ (Since did undid h ∧ ¬undid h x) := by
  constructor
  · rintro ⟨past, y, later, heq, hdid, hkept⟩
    rcases List.eq_nil_or_concat later with rfl | ⟨mid, z, rfl⟩
    · obtain ⟨rfl, hx⟩ := List.append_inj' heq rfl
      exact .inl (List.singleton_inj.mp hx ▸ hdid)
    · rw [List.concat_eq_append, ← List.cons_append, ← List.append_assoc] at heq
      obtain ⟨rfl, hx⟩ := List.append_inj' heq rfl
      obtain rfl : x = z := List.singleton_inj.mp hx
      rw [List.concat_eq_append] at hkept
      refine .inr ⟨⟨past, y, mid, rfl, hdid, fun mid' w rest hmid ↦ ?_⟩, hkept mid x [] rfl⟩
      refine hkept mid' w (rest ++ [x]) ?_
      rw [hmid, List.append_assoc, List.cons_append]
  · rintro (hdid | ⟨⟨past, y, later, rfl, hdid, hkept⟩, hlast⟩)
    · exact ⟨h, x, [], rfl, hdid, fun mid y rest hnil ↦
        absurd hnil.symm (List.append_ne_nil_of_right_ne_nil mid (List.cons_ne_nil y rest))⟩
    · refine ⟨past, y, later ++ [x], by rw [List.append_assoc, List.cons_append], hdid,
        fun mid z rest heq ↦ ?_⟩
      rcases List.eq_nil_or_concat rest with rfl | ⟨rest', w, rfl⟩
      · obtain ⟨rfl, hx⟩ := List.append_inj' heq rfl
        exact List.singleton_inj.mp hx ▸ hlast
      · rw [List.concat_eq_append, ← List.cons_append, ← List.append_assoc] at heq
        exact hkept mid z rest' (List.append_inj' heq rfl).1

end OfferAnswer
