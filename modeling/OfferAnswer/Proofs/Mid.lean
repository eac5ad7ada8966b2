import OfferAnswer.Mid
import OfferAnswer.Proofs.Text.Words

/-!
# Names survive in identifiers

Turning a name into an identifier loses something: characters are cleaned and the name is cut. It
loses it once. The text of an identifier that was made from a name is the cleaned name, without
padding, and makes the same identifier again; so identifiers can be written into a description and
read back.

The identifiers of indices are different as long as the numerals fit.
-/

namespace OfferAnswer.Mid

variable {s : String}

/-! ## Cleaning -/

/-- The character that is kept in the place of another. -/
def cleaned (c : Char) : Char := if c.isAlphanum || c = '-' then c else '_'

theorem byteOf_eq (c : Char) : byteOf c = UInt8.ofNat (cleaned c).toNat := by
  rw [byteOf, cleaned]
  split <;> rfl

/-- What is kept is a letter or a digit, or one of two more characters. -/
theorem cleaned_cases (c : Char) :
    (cleaned c).isAlphanum = true ∨ cleaned c = '-' ∨ cleaned c = '_' := by
  rw [cleaned]
  split
  · rename_i h
    rw [Bool.or_eq_true, decide_eq_true_eq] at h
    exact h.imp_right Or.inl
  · exact Or.inr (Or.inr rfl)

theorem isBlank_cleaned (c : Char) : Text.isBlank (cleaned c) = false := by
  rcases cleaned_cases c with h | h | h
  · exact Text.isBlank_of_isAlphanum h
  · rw [h]
    decide
  · rw [h]
    decide

theorem toNat_cleaned_lt (c : Char) : (cleaned c).toNat < 128 := by
  rcases cleaned_cases c with h | h | h
  · exact Text.toNat_lt_of_isAlphanum h
  · rw [h]
    decide
  · rw [h]
    decide

/-- Cleaning twice is cleaning once. -/
theorem byteOf_cleaned (c : Char) : byteOf (cleaned c) = byteOf c := by
  have htwice : cleaned (cleaned c) = cleaned c := by
    rcases cleaned_cases c with h | h | h
    · rw [cleaned.eq_def (cleaned c), h]
      rfl
    · rw [h]
      decide
    · rw [h]
      decide
  rw [byteOf_eq, byteOf_eq, htwice]

theorem cleaned_of_isDigit {c : Char} (h : c.isDigit = true) : cleaned c = c := by
  rw [cleaned, Char.isAlphanum, h, Bool.or_true]
  rfl

theorem toNat_byteOf (c : Char) : (byteOf c).toNat = (cleaned c).toNat := by
  rw [byteOf_eq, UInt8.toNat_ofNat']
  exact Nat.mod_eq_of_lt (Nat.lt_of_lt_of_le (toNat_cleaned_lt c) (by decide))

/-! ## Cutting and padding -/

theorem fit_eq (bs : List UInt8) : fit bs = bs.take 16 ++ List.replicate (16 - bs.length) 32 := by
  rw [fit, List.take_append, List.take_replicate, Nat.min_eq_left (Nat.sub_le 16 bs.length)]

theorem fit_take (bs : List UInt8) : fit (bs.take 16) = fit bs := by
  rw [fit_eq, fit_eq, List.take_take, Nat.min_self, List.length_take]
  congr 2
  omega

theorem decode_fit (cs : List Char) : decode (fit (cs.map byteOf)) =
    (cs.take 16).map cleaned ++ List.replicate (16 - cs.length) ' ' := by
  have hall : (fit (cs.map byteOf)).all (· < 128) = true := by
    rw [fit_eq, List.all_append, Bool.and_eq_true, List.all_eq_true, List.all_eq_true]
    constructor
    · intro b hb
      obtain ⟨c, -, rfl⟩ := List.mem_map.mp (List.mem_of_mem_take hb)
      rw [decide_eq_true_iff, UInt8.lt_iff_toNat_lt, toNat_byteOf]
      exact toNat_cleaned_lt c
    · intro b hb
      rw [(List.mem_replicate.mp hb).2]
      decide
  have hchar : ∀ c, Char.ofNat (byteOf c).toNat = cleaned c := fun c ↦ by
    rw [toNat_byteOf, Char.ofNat_toNat]
  rw [decode, if_pos hall, fit_eq, List.map_append, List.map_replicate, List.length_map,
    ← List.map_take, List.map_map]
  congr 1
  exact List.map_congr_left fun c _ ↦ hchar c

/-! ## Texts of names -/

/-- The text of an identifier is the name it was made from, cleaned and cut. -/
theorem toList_text_ofText (s : String) :
    (ofText s).text.toList = (s.toList.take 16).map cleaned := by
  rw [text, String.toList_ofList]
  change Text.trim (decode (fit (s.toList.map byteOf))) = _
  rw [decode_fit]
  refine Text.trim_append_replicate (fun c hc ↦ ?_) _
  obtain ⟨c', -, rfl⟩ := List.mem_map.mp hc
  exact isBlank_cleaned c'

/-- What is left of a name: its first 16 characters, cleaned. -/
def written (s : String) : String := String.ofList ((s.toList.take 16).map cleaned)

theorem text_ofText (s : String) : (ofText s).text = written s := by
  rw [written, ← toList_text_ofText, String.ofList_toList]

/-- Whether nothing of a name is lost. -/
def IsPlain (s : String) : Prop :=
  s.toList.length ≤ 16 ∧ ∀ c ∈ s.toList, c.isAlphanum = true ∨ c = '-' ∨ c = '_'

instance (s : String) : Decidable (IsPlain s) := inferInstanceAs (Decidable (_ ∧ _))

theorem cleaned_eq_self_iff (c : Char) :
    cleaned c = c ↔ c.isAlphanum = true ∨ c = '-' ∨ c = '_' := by
  constructor
  · intro h
    have hcases := cleaned_cases c
    rwa [h] at hcases
  · rintro (h | rfl | rfl)
    · rw [cleaned, h]
      rfl
    · decide
    · decide

theorem written_eq_self_iff : written s = s ↔ IsPlain s := by
  rw [← String.toList_inj, written, String.toList_ofList]
  constructor
  · intro h
    have hlen := congrArg List.length h
    rw [List.length_map, List.length_take] at hlen
    refine ⟨by omega, fun c hc ↦ ?_⟩
    rw [← h] at hc
    obtain ⟨c', -, rfl⟩ := List.mem_map.mp hc
    exact cleaned_cases c'
  · rintro ⟨hlen, hall⟩
    rw [List.take_of_length_le hlen]
    exact (List.map_congr_left fun c hc ↦ (cleaned_eq_self_iff c).mpr (hall c hc)).trans
      (List.map_id _)

/-- The text of an identifier that was made from a name makes it again. -/
@[simp] theorem ofText_text_ofText (s : String) : ofText (ofText s).text = ofText s := by
  have hbytes : (((s.toList.take 16).map cleaned).map byteOf) = (s.toList.map byteOf).take 16 := by
    rw [List.map_map, ← List.map_take]
    exact List.map_congr_left fun c _ ↦ byteOf_cleaned c
  simp only [ofText, mk.injEq]
  change fit ((ofText s).text.toList.map byteOf) = _
  rw [toList_text_ofText, hbytes, fit_take]

/-- Names are told apart by what is left of them. -/
theorem ofText_inj {t : String} : ofText s = ofText t ↔ written s = written t := by
  constructor
  · intro h
    rw [← text_ofText, h, text_ofText]
  · intro h
    rw [← ofText_text_ofText, text_ofText, h, ← text_ofText, ofText_text_ofText]

theorem space_notMem_text_ofText (s : String) : ' ' ∉ (ofText s).text.toList := by
  rw [toList_text_ofText]
  intro h
  obtain ⟨c, -, hc⟩ := List.mem_map.mp h
  have hblank := isBlank_cleaned c
  rw [hc] at hblank
  cases hblank

theorem text_ofText_ne_empty (h : s ≠ "") : (ofText s).text ≠ "" := by
  intro hempty
  have hnil : (s.toList.take 16).map cleaned = [] := by
    rw [← toList_text_ofText, hempty]
    rfl
  rw [List.map_eq_nil_iff, List.take_eq_nil_iff] at hnil
  rcases hnil with hnil | hnil
  · cases hnil
  · exact h (String.toList_eq_nil_iff.mp hnil)

/-- An identifier that was made from a name. -/
def Named (m : Mid) : Prop := ∃ s, s ≠ "" ∧ m = ofText s

theorem Named.ofText_text {m : Mid} (h : m.Named) : ofText m.text = m := by
  obtain ⟨s, -, rfl⟩ := h
  exact ofText_text_ofText s

theorem Named.text_ne_empty {m : Mid} (h : m.Named) : m.text ≠ "" := by
  obtain ⟨s, hs, rfl⟩ := h
  exact text_ofText_ne_empty hs

/-- An identifier that is read back from its text. A name may be empty here. -/
def Legible (m : Mid) : Prop := ofText m.text = m

theorem legible_ofText (s : String) : (ofText s).Legible := ofText_text_ofText s

theorem Named.legible {m : Mid} (h : m.Named) : m.Legible := h.ofText_text

theorem Legible.space_notMem {m : Mid} (h : m.Legible) : ' ' ∉ m.text.toList := by
  have hspace := space_notMem_text_ofText m.text
  rwa [h] at hspace

/-! ## Indices -/

theorem named_ofIndex (i : Nat) : (ofIndex i).Named := ⟨_, Numeral.decimal_ne_empty i, rfl⟩

/-- The least number of which the numeral does not fit into an identifier. -/
def indexBound : Nat := 10 ^ 16

theorem toList_text_ofIndex {i : Nat} (h : i < indexBound) :
    (ofIndex i).text.toList = Numeral.decimalChars i := by
  have hlen : (Numeral.decimalChars i).length ≤ 16 := by
    rw [Numeral.decimalChars, List.length_map]
    exact Numeral.length_digits_le (by decide) (by decide) h
  rw [ofIndex, toList_text_ofText, Numeral.toList_decimal, List.take_of_length_le hlen]
  refine (List.map_congr_left fun c hc ↦ ?_).trans (List.map_id _)
  exact cleaned_of_isDigit (Numeral.isDigit_of_mem_decimalChars hc)

/-- Different indices have different identifiers, as long as their numerals fit. -/
theorem ofIndex_inj {i j : Nat} (hi : i < indexBound) (hj : j < indexBound) :
    ofIndex i = ofIndex j ↔ i = j := by
  refine ⟨fun h ↦ ?_, fun h ↦ h ▸ rfl⟩
  rw [← Numeral.decimalChars_inj, ← toList_text_ofIndex hi, h, toList_text_ofIndex hj]

end OfferAnswer.Mid
