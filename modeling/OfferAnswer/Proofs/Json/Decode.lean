import OfferAnswer.Json.Decode
import OfferAnswer.Proofs.Json.RoundTrip
import OfferAnswer.Proofs.Lookup

/-!
# Values are taken apart as they were put together

Every reader of a simple value undoes its writer. A record is a matter of names: when no field has
the name of another, each is found under its own, and one that was left out is missing while the
others stay what they were. `toFields?_filter` is that, for any choice of fields.

Some values are kept before they are read, and those must be plain. What is written is: a number
that fits into 64 bits is far from the end of the doubles, however it is rounded on its way.
-/

namespace OfferAnswer

variable {α : Type} {bound n d : Nat}

/-! ## Numbers -/

namespace JsonNumber

@[simp] theorem toNat?_ofNat (n : Nat) : (ofNat n).toNat? = some n :=
  congrArg some (Numeral.value_digits (by decide) n)

theorem appendDigits_eq (n : Nat) (ds : List Nat)
    (h : ds.foldl (fun acc d ↦ acc * 10 + d) n < UInt64.size) :
    appendDigits n ds = (ds.foldl (fun acc d ↦ acc * 10 + d) n, []) := by
  -- digits only ever make the number greater
  have hle : ∀ (ds : List Nat) (n : Nat), n ≤ ds.foldl (fun acc d ↦ acc * 10 + d) n := by
    intro ds
    induction ds with
    | nil => exact fun n ↦ Nat.le_refl n
    | cons d ds ih => exact fun n ↦ Nat.le_trans (by omega) (ih (n * 10 + d))
  induction ds generalizing n with
  | nil => rfl
  | cons d ds ih =>
    rw [appendDigits, if_pos (Nat.lt_of_le_of_lt (hle ds _) h), ih _ h, List.foldl_cons]

theorem scaled_ofNat (h : n < UInt64.size) : (ofNat n).scaled = (n, 0) := by
  have hvalue : (Numeral.digits 10 n).foldl (fun acc d ↦ acc * 10 + d) 0 = n :=
    Numeral.value_digits (by decide) n
  have hdigits : appendDigits 0 (Numeral.digits 10 n) = (n, []) := by
    rw [appendDigits_eq 0 _ (hvalue.symm ▸ h), hvalue]
  rw [scaled, ofNat, hdigits]
  rfl

/-- Rounding at most doubles a number. -/
theorem roundToDouble_le (n : Nat) : roundToDouble n ≤ 2 * n := by
  rcases Nat.eq_zero_or_pos n with rfl | hpos
  · decide
  · have hunit : Nat.pow 2 (n.log2 - 52) ≤ n :=
      Nat.le_trans (Nat.pow_le_pow_right (by decide) (Nat.sub_le _ _))
        (Nat.log2_self_le (Nat.ne_of_gt hpos))
    have hquotient : roundQuotient n (Nat.pow 2 (n.log2 - 52)) ≤
        n / Nat.pow 2 (n.log2 - 52) + 1 := by
      rw [roundQuotient]
      split
      · exact Nat.le_refl _
      · exact Nat.le_succ _
    calc roundToDouble n ≤ (n / Nat.pow 2 (n.log2 - 52) + 1) * Nat.pow 2 (n.log2 - 52) :=
          Nat.mul_le_mul_right _ hquotient
      _ = n / Nat.pow 2 (n.log2 - 52) * Nat.pow 2 (n.log2 - 52) + Nat.pow 2 (n.log2 - 52) :=
          Nat.succ_mul _ _
      _ ≤ n + n := Nat.add_le_add (Nat.div_mul_le_self _ _) hunit
      _ = 2 * n := (Nat.two_mul n).symm

theorem isFinite_ofNat (h : n < UInt64.size) : (ofNat n).isFinite = true := by
  rw [isFinite, scaled_ofNat h]
  dsimp only
  split
  · rfl
  · rw [if_neg (by decide), decide_eq_true_eq]
    have hone : roundToDouble (Nat.pow 10 (0 : Int).toNat) ≤ 2 := roundToDouble_le 1
    have hproduct := Nat.mul_le_mul (roundToDouble_le n) hone
    have hrounded := roundToDouble_le
      (roundToDouble n * roundToDouble (Nat.pow 10 (0 : Int).toNat))
    have hend : 8 * UInt64.size ≤ doubleEnd := by decide +kernel
    omega

end JsonNumber

namespace Json

/-! ## Simple values -/

theorem toNat?_nat (h : n < bound) : (nat n).toNat? bound = some n := by
  rw [nat, toNat?, JsonNumber.toNat?_ofNat, Option.filter_some, if_pos (decide_eq_true h)]

@[simp] theorem toUInt8?_nat (v : UInt8) : (nat v.toNat).toUInt8? = some v := by
  rw [toUInt8?, toNat?_nat v.toNat_lt_size, Option.map_some, UInt8.ofNat_toNat]

@[simp] theorem toUInt16?_nat (v : UInt16) : (nat v.toNat).toUInt16? = some v := by
  rw [toUInt16?, toNat?_nat v.toNat_lt_size, Option.map_some, UInt16.ofNat_toNat]

@[simp] theorem toUInt32?_nat (v : UInt32) : (nat v.toNat).toUInt32? = some v := by
  rw [toUInt32?, toNat?_nat v.toNat_lt_size, Option.map_some, UInt32.ofNat_toNat]

@[simp] theorem toText?_str (s : String) : (str s).toText? = some s := rfl

@[simp] theorem toBool?_bool (b : Bool) : (bool b).toBool? = some b := rfl

/-- A list is read back if its items are. -/
theorem toList?_array {read : Json → Option α} {write : α → Json} {as : List α}
    (h : ∀ a ∈ as, read (write a) = some a) : (array (as.map write)).toList? read = some as := by
  rw [toList?]
  induction as with
  | nil => rfl
  | cons a as ih =>
    rw [List.map_cons, List.mapM_cons, h a List.mem_cons_self,
      ih fun b hb ↦ h b (List.mem_cons_of_mem a hb)]
    rfl

/-- A value that may be missing is read back if it is not written as `null` itself. -/
theorem toOption?_opt {read : Json → Option α} {write : α → Json}
    (h : ∀ a, read (write a) = some a) (hnull : ∀ a, isNull (write a) = false) (o : Option α) :
    (opt write o).toOption? read = some o := by
  rcases o with _ | a
  · rfl
  · rw [opt, toOption?.eq_def]
    split
    · rename_i hwrite
      have := hnull a
      rw [hwrite] at this
      cases this
    · rw [h a, Option.map_some]

/-! ## Records -/

section Records

variable {ms : List (String × Json)} {m : String × Json}

theorem member?_map (name : String) (ms : List (String × Json)) :
    member? name (ms.map fun m ↦ (some m.1, m.2)) =
      (ms.find? fun m ↦ m.1 == name).map (·.2) := by
  have hname : ((fun x : Option String × Json ↦ x.1 == some name) ∘ fun m ↦ (some m.1, m.2)) =
      fun m : String × Json ↦ m.1 == name := funext fun m ↦ by simp
  rw [member?, List.find?_map, hname, Option.map_map]
  rfl

/-- A field is found under its name, unless it was left out. -/
theorem member?_filter (hnames : (ms.map (·.1)).Nodup) (kept : String → Bool) (hm : m ∈ ms) :
    member? m.1 ((ms.filter fun x ↦ kept x.1).map fun m ↦ (some m.1, m.2)) =
      if kept m.1 then some m.2 else none := by
  rw [member?_map]
  split
  · rename_i hkept
    have hfiltered : ((ms.filter fun x ↦ kept x.1).map (·.1)).Nodup :=
      hnames.sublist (List.filter_sublist.map _)
    rw [(find?_key_eq_some_iff hfiltered).mpr ⟨List.mem_filter.mpr ⟨hm, hkept⟩, rfl⟩,
      Option.map_some]
  · rename_i hkept
    rw [List.find?_eq_none.mpr fun x hx ↦ ?_, Option.map_none]
    rw [beq_iff_eq]
    exact fun hname ↦ hkept (hname ▸ (List.mem_filter.mp hx).2)

/-- No field stands twice when each has its own name. -/
theorem areFieldsOnce_of_nodup (hnames : (ms.map (·.1)).Nodup) (names : List String) :
    areFieldsOnce names (ms.map fun m ↦ (some m.1, m.2)) = true := by
  rw [areFieldsOnce, Bool.and_eq_true, List.all_eq_true, List.all_eq_true]
  refine ⟨fun x hx ↦ ?_, fun name _ ↦ decide_eq_true ?_⟩
  · obtain ⟨m, _, rfl⟩ := List.mem_map.mp hx
    rfl
  · have hcount := List.nodup_iff_count_le_one.mp hnames name
    rw [← List.countP_eq_length_filter, List.countP_map]
    rw [List.count, List.countP_map] at hcount
    refine Nat.le_trans (Nat.le_of_eq (List.countP_congr fun m _ ↦ ?_)) hcount
    simp

/-- **The fields of a record are those that it was made of**, whichever of them are left out. -/
theorem toFields?_filter (hnames : (ms.map (·.1)).Nodup) (kept : String → Bool) :
    (obj (ms.filter fun m ↦ kept m.1)).toFields? (ms.map (·.1)) =
      some (ms.map fun m ↦ if kept m.1 then some m.2 else none) := by
  have hkept : ((ms.filter fun m ↦ kept m.1).map (·.1)).Nodup :=
    hnames.sublist (List.filter_sublist.map _)
  rw [obj_eq, toFields?, if_pos (areFieldsOnce_of_nodup hkept _), List.map_map]
  exact congrArg some (List.map_congr_left fun m hm ↦ member?_filter hnames kept hm)

theorem toFields?_obj {names : List String} (hkeys : ms.map (·.1) = names)
    (hnames : names.Nodup) : (obj ms).toFields? names = some (ms.map fun m ↦ some m.2) := by
  subst hkeys
  have hall := toFields?_filter hnames fun _ ↦ true
  rw [List.filter_true] at hall
  exact hall

theorem orDefault_ite {read : Json → Option α} {v : Json} {a : α} (h : read v = some a) (b : Bool)
    (default : α) :
    orDefault default read (if b then some v else none) = some (if b then a else default) := by
  rcases b with _ | _
  · rfl
  · exact h

end Records

/-! ## What may be kept -/

theorem isPlain_array {vs : List Json} (h : ∀ v ∈ vs, v.isPlain = true) :
    (array vs).isPlain = true := by
  rw [isPlain]
  induction vs with
  | nil => rfl
  | cons v vs ih =>
    rw [arePlainItems, h v List.mem_cons_self, ih fun w hw ↦ h w (List.mem_cons_of_mem v hw)]
    rfl

theorem isPlain_obj {ms : List (String × Json)} (h : ∀ m ∈ ms, m.2.isPlain = true) :
    (obj ms).isPlain = true := by
  rw [obj_eq, isPlain]
  induction ms with
  | nil => rfl
  | cons m ms ih =>
    rw [List.map_cons, arePlainMembers, h m List.mem_cons_self,
      ih fun x hx ↦ h x (List.mem_cons_of_mem m hx)]
    rfl

theorem depth_array_le {vs : List Json} (h : ∀ v ∈ vs, v.depth ≤ d) : (array vs).depth ≤ d + 1 := by
  rw [depth, Nat.add_comm]
  refine Nat.add_le_add_right ?_ 1
  induction vs with
  | nil => exact Nat.zero_le d
  | cons v vs ih =>
    rw [depthItems]
    exact Nat.max_le.mpr
      ⟨h v List.mem_cons_self, ih fun w hw ↦ h w (List.mem_cons_of_mem v hw)⟩

theorem depth_obj_le {ms : List (String × Json)} (h : ∀ m ∈ ms, m.2.depth ≤ d) :
    (obj ms).depth ≤ d + 1 := by
  rw [obj_eq, depth, Nat.add_comm]
  refine Nat.add_le_add_right ?_ 1
  induction ms with
  | nil => exact Nat.zero_le d
  | cons m ms ih =>
    rw [List.map_cons, depthMembers]
    exact Nat.max_le.mpr
      ⟨h m List.mem_cons_self, ih fun x hx ↦ h x (List.mem_cons_of_mem m hx)⟩

/-- Whether a value is read back from its text, and may be kept where the depth is bounded. -/
structure Fits (d : Nat) (v : Json) : Prop where
  /-- It is read back. -/
  writable : v.Writable
  /-- Its strings are texts and its numbers in range. -/
  isPlain : v.isPlain = true
  /-- It is nested no deeper than that. -/
  depth_le : v.depth ≤ d

namespace Fits

theorem null : Fits d .null := ⟨.null, rfl, Nat.zero_le d⟩

theorem str (s : String) : Fits d (.str s) := ⟨.str s, rfl, Nat.zero_le d⟩

theorem nat (h : n < UInt64.size) : Fits d (.nat n) :=
  ⟨.nat n, JsonNumber.isFinite_ofNat h, Nat.zero_le d⟩

theorem uint8 (v : UInt8) : Fits d (.nat v.toNat) :=
  nat (Nat.lt_trans v.toNat_lt_size (by decide))

theorem uint16 (v : UInt16) : Fits d (.nat v.toNat) :=
  nat (Nat.lt_trans v.toNat_lt_size (by decide))

theorem uint32 (v : UInt32) : Fits d (.nat v.toNat) :=
  nat (Nat.lt_trans v.toNat_lt_size (by decide))

theorem opt {write : α → Json} (h : ∀ a, Fits d (write a)) (o : Option α) :
    Fits d (.opt write o) := by
  rcases o with _ | a
  · exact null
  · exact h a

theorem array {write : α → Json} {as : List α} (h : ∀ a ∈ as, Fits d (write a)) :
    Fits (d + 1) (.array (as.map write)) := by
  have hall : ∀ v ∈ as.map write, Fits d v := by
    intro v hv
    obtain ⟨a, ha, rfl⟩ := List.mem_map.mp hv
    exact h a ha
  exact ⟨.array fun v hv ↦ (hall v hv).writable, isPlain_array fun v hv ↦ (hall v hv).isPlain,
    depth_array_le fun v hv ↦ (hall v hv).depth_le⟩

theorem obj {ms : List (String × Json)} (h : ∀ m ∈ ms, Fits d m.2) : Fits (d + 1) (.obj ms) :=
  ⟨.obj fun m hm ↦ (h m hm).writable, isPlain_obj fun m hm ↦ (h m hm).isPlain,
    depth_obj_le fun m hm ↦ (h m hm).depth_le⟩

end Fits

end Json

end OfferAnswer
