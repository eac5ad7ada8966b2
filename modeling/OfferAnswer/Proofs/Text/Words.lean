import OfferAnswer.Proofs.Text.Numerals
import OfferAnswer.Text.Words

/-!
# Cutting what was joined

Writing puts separators between pieces, and reading cuts at them. The two agree as long as no piece
has the separator in it. That is the one hypothesis of every lemma here, and where it has to come
from: names of sections have no spaces, numerals have neither spaces nor slashes, and of an encoding
name it must be asked.
-/

namespace OfferAnswer.Text

variable {sep : Char} {w cs rest : List Char} {p : Char → Bool}

/-! ## Runs of a class -/

/-- A run of characters of a class ends where a character of another class follows. -/
theorem takeWhile_append (hw : ∀ c ∈ w, p c = true) (hrest : ∀ c ∈ rest.head?, p c = false) :
    (w ++ rest).takeWhile p = w := by
  rw [List.takeWhile_append_of_pos hw]
  cases rest with
  | nil => exact List.append_nil w
  | cons c rest => rw [List.takeWhile_cons_of_neg (by simp [hrest c rfl]), List.append_nil]

theorem dropWhile_append (hw : ∀ c ∈ w, p c = true) (hrest : ∀ c ∈ rest.head?, p c = false) :
    (w ++ rest).dropWhile p = rest := by
  rw [List.dropWhile_append_of_pos hw]
  cases rest with
  | nil => rfl
  | cons c rest => exact List.dropWhile_cons_of_neg (by simp [hrest c rfl])

/-- What stands behind a character of another class is in no run. -/
theorem takeWhile_append_of_neg {x : Char} (hx : p x = false) (w cs : List Char) :
    (w ++ x :: cs).takeWhile p = w.takeWhile p := by
  induction w with
  | nil => simp [hx]
  | cons c w ih => rw [List.cons_append, List.takeWhile_cons, List.takeWhile_cons, ih]

/-! ## Pieces that are joined -/

theorem joinWith_cons (sep w : List Char) (ws : List (List Char)) :
    joinWith sep (w :: ws) = w ++ ws.flatMap (sep ++ ·) := by
  induction ws generalizing w with
  | nil => exact (List.append_nil w).symm
  | cons v ws ih => rw [joinWith, ih, List.flatMap_cons, List.append_assoc, List.append_assoc]

theorem forall_mem_joinWith {P : Char → Prop} {sep : List Char} {ws : List (List Char)}
    (hsep : ∀ c ∈ sep, P c) (hws : ∀ w ∈ ws, ∀ c ∈ w, P c) : ∀ c ∈ joinWith sep ws, P c := by
  cases ws with
  | nil => exact fun c hc ↦ absurd hc List.not_mem_nil
  | cons w ws =>
    rw [List.forall_mem_cons] at hws
    rw [joinWith_cons]
    intro c hc
    rcases List.mem_append.mp hc with hc | hc
    · exact hws.1 c hc
    · obtain ⟨v, hv, hc⟩ := List.mem_flatMap.mp hc
      exact (List.mem_append.mp hc).elim (hsep c) (hws.2 v hv c)

/-! ## At every separator -/

theorem splitAt_cons_of_ne {c : Char} (h : c ≠ sep) {v : List Char} {ws : List (List Char)}
    (hcs : splitAt sep cs = v :: ws) : splitAt sep (c :: cs) = (c :: v) :: ws := by
  rw [splitAt, if_neg h, hcs]

theorem splitAt_of_notMem (h : sep ∉ w) : splitAt sep w = [w] := by
  induction w with
  | nil => rfl
  | cons c w ih =>
    rw [List.mem_cons, not_or] at h
    exact splitAt_cons_of_ne (Ne.symm h.1) (ih h.2)

theorem splitAt_append (h : sep ∉ w) (cs : List Char) :
    splitAt sep (w ++ sep :: cs) = w :: splitAt sep cs := by
  induction w with
  | nil =>
    rw [List.nil_append, splitAt]
    exact if_pos rfl
  | cons c w ih =>
    rw [List.mem_cons, not_or] at h
    exact splitAt_cons_of_ne (Ne.symm h.1) (ih h.2)

/-- Pieces without the separator are the pieces of what they are joined to. -/
theorem splitAt_joinWith {ws : List (List Char)} (hws : ws ≠ []) (h : ∀ w ∈ ws, sep ∉ w) :
    splitAt sep (joinWith [sep] ws) = ws := by
  induction ws with
  | nil => exact absurd rfl hws
  | cons w ws ih =>
    have hw := h w List.mem_cons_self
    cases ws with
    | nil => exact splitAt_of_notMem hw
    | cons v ws =>
      rw [joinWith, List.append_assoc, List.singleton_append, splitAt_append hw,
        ih (List.cons_ne_nil v ws) fun u hu ↦ h u (List.mem_cons_of_mem w hu)]

/-! ## At the first separator -/

theorem before_append (h : sep ∉ w) (cs : List Char) : before sep (w ++ sep :: cs) = w := by
  rw [before]
  induction w with
  | nil => exact List.takeWhile_cons_of_neg (by simp)
  | cons c w ih =>
    rw [List.mem_cons, not_or] at h
    rw [List.cons_append, List.takeWhile_cons_of_pos (by simpa using Ne.symm h.1), ih h.2]

theorem after_append (h : sep ∉ w) (cs : List Char) : after sep (w ++ sep :: cs) = cs := by
  rw [after]
  induction w with
  | nil =>
    rw [List.nil_append, List.dropWhile_cons_of_neg (by simp)]
    rfl
  | cons c w ih =>
    rw [List.mem_cons, not_or] at h
    rw [List.cons_append, List.dropWhile_cons_of_pos (by simpa using Ne.symm h.1), ih h.2]

theorem firstWord_append {s : String} (h : ' ' ∉ s.toList) (t : String) :
    firstWord (s ++ " " ++ t) = s := by
  rw [firstWord, String.toList_append, String.toList_append, List.append_assoc]
  exact (congrArg String.ofList (before_append h t.toList)).trans String.ofList_toList

theorem afterFirstWord_append {s : String} (h : ' ' ∉ s.toList) (t : String) :
    afterFirstWord (s ++ " " ++ t) = t := by
  rw [afterFirstWord, String.toList_append, String.toList_append, List.append_assoc]
  exact (congrArg String.ofList (after_append h t.toList)).trans String.ofList_toList

/-! ## Blanks -/

theorem dropWhile_isBlank (h : ∀ c ∈ cs, isBlank c = false) : cs.dropWhile isBlank = cs := by
  cases cs with
  | nil => rfl
  | cons c cs =>
    refine List.dropWhile_cons_of_neg ?_
    rw [h c List.mem_cons_self]
    exact Bool.false_ne_true

/-- Text without blanks is what is left of it when spaces after it are trimmed. -/
theorem trim_append_replicate (h : ∀ c ∈ cs, isBlank c = false) (n : Nat) :
    trim (cs ++ List.replicate n ' ') = cs := by
  have hback : ∀ n, (List.replicate n ' ' ++ cs.reverse).dropWhile isBlank = cs.reverse := by
    intro n
    induction n with
    | zero => exact dropWhile_isBlank fun c hc ↦ h c (List.mem_reverse.mp hc)
    | succ n ih =>
      rw [List.replicate_succ, List.cons_append, List.dropWhile_cons_of_pos (by decide), ih]
  cases cs with
  | nil =>
    have hall := hback n
    rw [List.reverse_nil, List.append_nil] at hall
    rw [trim, List.nil_append, hall]
    rfl
  | cons c cs =>
    have hfront : (c :: cs ++ List.replicate n ' ').dropWhile isBlank =
        c :: cs ++ List.replicate n ' ' := by
      refine List.dropWhile_cons_of_neg ?_
      rw [h c List.mem_cons_self]
      exact Bool.false_ne_true
    rw [trim, hfront, List.reverse_append, List.reverse_replicate, hback, List.reverse_reverse]

theorem trim_eq_self (h : ∀ c ∈ cs, isBlank c = false) : trim cs = cs := by
  have htrim := trim_append_replicate h 0
  rwa [List.replicate_zero, List.append_nil] at htrim

/-- The text without the blanks at its end. -/
def trimEnd (cs : List Char) : List Char := (cs.reverse.dropWhile isBlank).reverse

/-- Of a text that begins with no blank, only the end is trimmed. -/
theorem trim_of_head (h : ∀ c ∈ cs.head?, isBlank c = false) : trim cs = trimEnd cs := by
  cases cs with
  | nil => rfl
  | cons c cs =>
    have hc : isBlank c = false := h c rfl
    rw [trim, List.dropWhile_cons_of_neg (by rw [hc]; exact Bool.false_ne_true), trimEnd]

/-- Trimming goes on before a text that is all blank, and ends in any other. -/
theorem trimEnd_append (w cs : List Char) :
    trimEnd (w ++ cs) = if trimEnd cs = [] then trimEnd w else w ++ trimEnd cs := by
  have hnil : trimEnd cs = [] ↔ cs.reverse.dropWhile isBlank = [] := List.reverse_eq_nil_iff
  rw [trimEnd, List.reverse_append, List.dropWhile_append]
  by_cases h : cs.reverse.dropWhile isBlank = []
  · rw [if_pos (List.isEmpty_iff.mpr h), if_pos (hnil.mpr h), trimEnd]
  · rw [if_neg (mt List.isEmpty_iff.mp h), if_neg (mt hnil.mp h), List.reverse_append,
      List.reverse_reverse, trimEnd]

theorem trimEnd_append_of_ne (h : trimEnd cs ≠ []) (w : List Char) :
    trimEnd (w ++ cs) = w ++ trimEnd cs := by
  rw [trimEnd_append, if_neg h]

theorem trimEnd_eq_self_iff : trimEnd cs = cs ↔ ∀ c ∈ cs.getLast?, isBlank c = false := by
  rw [trimEnd, ← List.head?_reverse, List.reverse_eq_iff]
  cases cs.reverse with
  | nil => exact iff_of_true rfl nofun
  | cons c back =>
    cases hc : isBlank c with
    | true =>
      -- what is left is shorter
      have hlen := (List.dropWhile_suffix (l := back) isBlank).length_le
      refine iff_of_false (fun heq ↦ ?_) fun h ↦ absurd (h c rfl) (by simp [hc])
      have hlength := congrArg List.length heq
      rw [List.dropWhile_cons_of_pos hc, List.length_cons] at hlength
      omega
    | false =>
      refine iff_of_true (List.dropWhile_cons_of_neg (by simp [hc])) ?_
      rintro _ ⟨rfl⟩
      exact hc

theorem toNat_cases_of_isAlphanum {c : Char} (h : c.isAlphanum = true) :
    48 ≤ c.toNat ∧ c.toNat ≤ 57 ∨ 65 ≤ c.toNat ∧ c.toNat ≤ 90 ∨
      97 ≤ c.toNat ∧ c.toNat ≤ 122 := by
  -- in terms of code points, which are linear
  change ((decide (65 ≤ c.toNat ∧ c.toNat ≤ 90) ||
    decide (97 ≤ c.toNat) && decide (c.toNat ≤ 122)) ||
    decide (48 ≤ c.toNat) && decide (c.toNat ≤ 57)) = true at h
  simp only [Bool.or_eq_true, Bool.and_eq_true, decide_eq_true_eq] at h
  omega

theorem toNat_lt_of_isAlphanum {c : Char} (h : c.isAlphanum = true) : c.toNat < 128 := by
  rcases toNat_cases_of_isAlphanum h with h | h | h <;> omega

theorem isBlank_of_isAlphanum {c : Char} (h : c.isAlphanum = true) : isBlank c = false := by
  have hc := toNat_cases_of_isAlphanum h
  simp only [isBlank, Bool.or_eq_false_iff, Bool.and_eq_false_iff, decide_eq_false_iff_not,
    beq_eq_false_iff_ne]
  omega

theorem isBlank_of_isDigit {c : Char} (h : c.isDigit = true) : isBlank c = false :=
  isBlank_of_isAlphanum (by rw [Char.isAlphanum, h, Bool.or_true])

end OfferAnswer.Text
