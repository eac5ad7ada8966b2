import Mathlib.Algebra.Group.Nat.Defs
import OfferAnswer.Text.Numeral

/-!
# Numerals are read back

Everything numeric in a description is written in decimal: ports, payload types, clock rates, the
index that names a section. Reading takes more than is written, but what is written is read back as
the number it stands for, by every reader whose bound allows it. Only the groups of an address are
hexadecimal.

All of it rests on one equation, in any base: the digits of a number are those of the number without
its last digit, and that.
-/

namespace OfferAnswer.Numeral

variable {base n bound k : Nat}

/-! ## Digits -/

theorem digits_of_lt (hbase : 2 ≤ base) (h : n < base) : digits base n = [n] := by
  rw [digits, Nat.max_eq_left hbase]
  exact if_pos h

theorem digits_of_le (hbase : 2 ≤ base) (h : base ≤ n) :
    digits base n = digits base (n / base) ++ [n % base] := by
  rw [digits, Nat.max_eq_left hbase]
  exact if_neg (Nat.not_lt.mpr h)

theorem digits_ne_nil (hbase : 2 ≤ base) (n : Nat) : digits base n ≠ [] := by
  rcases Nat.lt_or_ge n base with h | h
  · rw [digits_of_lt hbase h]
    exact List.cons_ne_nil n []
  · rw [digits_of_le hbase h]
    exact List.append_ne_nil_of_right_ne_nil _ (List.cons_ne_nil _ [])

/-- What is left of a number without its last digit is less. -/
theorem div_base_lt (hbase : 2 ≤ base) (h : base ≤ n) : n / base < n :=
  Nat.div_lt_self (by omega) (by omega)

theorem lt_of_mem_digits (hbase : 2 ≤ base) {d : Nat} (h : d ∈ digits base n) : d < base := by
  induction n using Nat.strongRecOn with
  | ind n ih =>
    rcases Nat.lt_or_ge n base with hn | hn
    · rw [digits_of_lt hbase hn] at h
      rwa [List.mem_singleton.mp h]
    · rw [digits_of_le hbase hn] at h
      rcases List.mem_append.mp h with h | h
      · exact ih (n / base) (div_base_lt hbase hn) h
      · rw [List.mem_singleton.mp h]
        exact Nat.mod_lt n (by omega)

theorem value_append (base : Nat) (ds : List Nat) (d : Nat) :
    value base (ds ++ [d]) = value base ds * base + d := by
  rw [value, List.foldl_append]
  rfl

/-- The digits of a number denote it. -/
theorem value_digits (hbase : 2 ≤ base) (n : Nat) : value base (digits base n) = n := by
  induction n using Nat.strongRecOn with
  | ind n ih =>
    rcases Nat.lt_or_ge n base with h | h
    · rw [digits_of_lt hbase h, value, List.foldl_cons, List.foldl_nil, Nat.zero_mul, Nat.zero_add]
    · rw [digits_of_le hbase h, value_append, ih (n / base) (div_base_lt hbase h)]
      exact Nat.div_add_mod' n base

/-- A number below a power of the base has no more digits than the exponent says. -/
theorem length_digits_le (hbase : 2 ≤ base) (hk : 0 < k) (h : n < base ^ k) :
    (digits base n).length ≤ k := by
  induction k generalizing n with
  | zero => exact absurd hk (Nat.lt_irrefl 0)
  | succ k ih =>
    rcases Nat.lt_or_ge n base with hn | hn
    · rw [digits_of_lt hbase hn]
      exact Nat.succ_le_succ (Nat.zero_le k)
    · rw [digits_of_le hbase hn, List.length_append, List.length_singleton]
      have hpos : 0 < k := Nat.pos_of_ne_zero fun hzero ↦ by
        rw [hzero, Nat.pow_one] at h
        exact absurd h (Nat.not_lt.mpr hn)
      rw [Nat.pow_succ] at h
      exact Nat.succ_le_succ (ih hpos (Nat.div_lt_of_lt_mul (Nat.mul_comm _ base ▸ h)))

/-- Only zero is written with a zero in front. -/
theorem head_digits_ne_zero (hbase : 2 ≤ base) (hn : n ≠ 0) : (digits base n).head? ≠ some 0 := by
  induction n using Nat.strongRecOn with
  | ind n ih =>
    rcases Nat.lt_or_ge n base with h | h
    · rw [digits_of_lt hbase h, List.head?_cons, Ne, Option.some_inj]
      exact hn
    · have hfront := ih (n / base) (div_base_lt hbase h)
        (Nat.ne_of_gt (Nat.div_pos h (by omega)))
      obtain ⟨d, ds, hds⟩ := List.exists_cons_of_ne_nil (digits_ne_nil hbase (n / base))
      rw [digits_of_le hbase h, hds]
      rw [hds] at hfront
      exact hfront

/-! ## Characters -/

theorem isDigit_decimalChar {d : Nat} (h : d < 10) : (decimalChar d).isDigit = true := by
  have : ∀ d : Fin 10, (decimalChar d).isDigit = true := by decide
  exact this ⟨d, h⟩

theorem digitValue_decimalChar {d : Nat} (h : d < 10) : digitValue (decimalChar d) = d := by
  have : ∀ d : Fin 10, digitValue (decimalChar d) = d := by decide
  exact this ⟨d, h⟩

theorem decimalChars_ne_nil (n : Nat) : decimalChars n ≠ [] :=
  fun h ↦ digits_ne_nil (by decide) n (List.map_eq_nil_iff.mp h)

theorem isDigit_of_mem_decimalChars {c : Char} (h : c ∈ decimalChars n) : c.isDigit = true := by
  obtain ⟨d, hd, rfl⟩ := List.mem_map.mp h
  exact isDigit_decimalChar (lt_of_mem_digits (by decide) hd)

/-- A numeral begins with a digit. -/
theorem decimalChars_eq_cons (n : Nat) :
    ∃ c cs, decimalChars n = c :: cs ∧ c.isDigit = true := by
  obtain ⟨c, cs, hcs⟩ := List.exists_cons_of_ne_nil (decimalChars_ne_nil n)
  exact ⟨c, cs, hcs, isDigit_of_mem_decimalChars (hcs ▸ List.mem_cons_self)⟩

theorem map_decimalChars (n : Nat) : (decimalChars n).map digitValue = digits 10 n := by
  rw [decimalChars, List.map_map]
  refine (List.map_congr_left fun d hd ↦ ?_).trans (List.map_id _)
  exact digitValue_decimalChar (lt_of_mem_digits (by decide) hd)

theorem decimalValue_decimalChars (n : Nat) : decimalValue (decimalChars n) = n := by
  rw [decimalValue, map_decimalChars, value_digits (by decide)]

theorem decimalChars_inj {m n : Nat} : decimalChars m = decimalChars n ↔ m = n := by
  refine ⟨fun h ↦ ?_, fun h ↦ h ▸ rfl⟩
  rw [← decimalValue_decimalChars m, h, decimalValue_decimalChars]

@[simp] theorem toList_decimal (n : Nat) : (decimal n).toList = decimalChars n :=
  String.toList_ofList

theorem decimal_ne_empty (n : Nat) : decimal n ≠ "" := by
  intro h
  have hchars := toList_decimal n
  rw [h] at hchars
  exact decimalChars_ne_nil n hchars.symm

theorem space_notMem_decimalChars (n : Nat) : ' ' ∉ decimalChars n :=
  fun h ↦ absurd (isDigit_of_mem_decimalChars h) (by decide)

theorem slash_notMem_decimalChars (n : Nat) : '/' ∉ decimalChars n :=
  fun h ↦ absurd (isDigit_of_mem_decimalChars h) (by decide)

/-- A numeral that begins with a zero is that zero. -/
theorem decimalChars_of_head (h : (decimalChars n).head? = some '0') : decimalChars n = ['0'] := by
  rw [decimalChars, List.head?_map, Option.map_eq_some_iff] at h
  obtain ⟨d, hd, hchar⟩ := h
  have hlt := lt_of_mem_digits (by decide) (List.mem_of_mem_head? hd)
  have hzero : d = 0 := by
    rw [← digitValue_decimalChar hlt, hchar]
    rfl
  obtain rfl : n = 0 := Decidable.byContradiction fun hn ↦
    head_digits_ne_zero (by decide) hn (hzero ▸ hd)
  rw [decimalChars, digits_of_lt (by decide) (by decide)]
  rfl

/-! ## Hexadecimal characters -/

theorem hexValue?_hexChar {d : Nat} (h : d < 16) : hexValue? (hexChar d) = some d := by
  have : ∀ d : Fin 16, hexValue? (hexChar d) = some d.val := by decide
  exact this ⟨d, h⟩

theorem hexChars_ne_nil (n : Nat) : hexChars n ≠ [] :=
  fun h ↦ digits_ne_nil (by decide) n (List.map_eq_nil_iff.mp h)

theorem isHex_of_mem_hexChars {c : Char} (h : c ∈ hexChars n) : (hexValue? c).isSome = true := by
  obtain ⟨d, hd, rfl⟩ := List.mem_map.mp h
  rw [hexValue?_hexChar (lt_of_mem_digits (by decide) hd)]
  rfl

theorem filterMap_hexChars (n : Nat) : (hexChars n).filterMap hexValue? = digits 16 n := by
  have hall : ∀ ds : List Nat, (∀ d ∈ ds, d < 16) → (ds.map hexChar).filterMap hexValue? = ds := by
    intro ds hds
    induction ds with
    | nil => rfl
    | cons d ds ih =>
      rw [List.map_cons, List.filterMap_cons, hexValue?_hexChar (hds d List.mem_cons_self),
        ih fun d' hd' ↦ hds d' (List.mem_cons_of_mem d hd')]
  exact hall _ fun d hd ↦ lt_of_mem_digits (by decide) hd

/-! ## Reading -/

theorem readDigits_decimalChars (h : n < bound) : readDigits bound (decimalChars n) = some n := by
  have hall : (decimalChars n).all Char.isDigit = true :=
    List.all_eq_true.mpr fun c hc ↦ isDigit_of_mem_decimalChars hc
  rw [readDigits, decimalValue_decimalChars, if_pos ⟨decimalChars_ne_nil n, hall, h⟩]

/-- A numeral as it is written has no sign to take off. -/
theorem readUnsigned_decimalChars (h : n < bound) :
    readUnsigned bound (decimalChars n) = some n := by
  rw [readUnsigned.eq_def]
  split
  · rename_i cs hcs
    have hsign : '+' ∈ decimalChars n := hcs ▸ List.mem_cons_self
    exact absurd (isDigit_of_mem_decimalChars hsign) (by decide)
  · exact readDigits_decimalChars h

@[simp] theorem readUInt8_decimalChars (v : UInt8) : readUInt8 (decimalChars v.toNat) = some v := by
  rw [readUInt8, readUnsigned_decimalChars v.toNat_lt_size, Option.map_some, UInt8.ofNat_toNat]

@[simp] theorem readUInt16_decimalChars (v : UInt16) :
    readUInt16 (decimalChars v.toNat) = some v := by
  rw [readUInt16, readUnsigned_decimalChars v.toNat_lt_size, Option.map_some, UInt16.ofNat_toNat]

@[simp] theorem readUInt32_decimalChars (v : UInt32) :
    readUInt32 (decimalChars v.toNat) = some v := by
  rw [readUInt32, readUnsigned_decimalChars v.toNat_lt_size, Option.map_some, UInt32.ofNat_toNat]

end OfferAnswer.Numeral
