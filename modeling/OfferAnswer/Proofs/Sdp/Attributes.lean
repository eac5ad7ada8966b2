import Mathlib.Data.List.Induction
import OfferAnswer.Handler.Codec
import OfferAnswer.Sdp.Section

/-!
# What a section says under a key

A section is read key by key, so the theory of its attributes is about `Section.attrsOf`. Adding an
attribute changes what is said under its own key and nothing else, whichever of the three rules of
adding applies. That is the frame of every stage a section goes through: a stage that adds lines is
invisible under the keys it does not add.

## Single values

Under a key that may stand only once, adding *settles* the value, whatever stood there. It takes an
invariant, `Tidy`: a list that has such a key twice keeps its first line when the second is added
again. Everything here starts from an empty section and stays tidy.
-/

namespace OfferAnswer

/-! ## Lists of attributes -/

namespace Attribute

variable {a b : Attribute} {key : String} {attrs : List Attribute} {p : String → Bool}

theorem isSingle_congr (h : a.key = b.key) : a.isSingle = b.isSingle := by
  rw [isSingle, isSingle, direction?, direction?, h]

theorem mem_replaceFirst (h : b ∈ replaceFirst a attrs) : b = a ∨ b ∈ attrs := by
  induction attrs with
  | nil => cases h
  | cons c attrs ih =>
    rw [replaceFirst] at h
    split at h
    · exact (List.mem_cons.mp h).imp_right (List.mem_cons_of_mem c)
    · rcases List.mem_cons.mp h with rfl | h
      · exact Or.inr List.mem_cons_self
      · exact (ih h).imp_right (List.mem_cons_of_mem c)

theorem mem_addOnce (h : b ∈ addOnce a attrs) : b = a ∨ b ∈ attrs := by
  rw [addOnce] at h
  split at h
  · exact Or.inr h
  · split at h
    · exact mem_replaceFirst h
    · exact (List.mem_append.mp h).symm.imp_left List.mem_singleton.mp

theorem filter_replaceFirst_of_not (h : p a.key = false) (attrs : List Attribute) :
    (replaceFirst a attrs).filter (p ·.key) = attrs.filter (p ·.key) := by
  induction attrs with
  | nil => rfl
  | cons c attrs ih =>
    rw [replaceFirst]
    split
    · rename_i hc
      rw [List.filter_cons_of_neg (by simpa using h),
        List.filter_cons_of_neg (by simpa [hc] using h)]
    · rw [List.filter_cons, List.filter_cons, ih]

/-- The one that is replaced is the first of its key. -/
theorem filter_replaceFirst {attrs more : List Attribute}
    (h : attrs.filter (·.key == a.key) = b :: more) :
    (replaceFirst a attrs).filter (·.key == a.key) = a :: more := by
  induction attrs with
  | nil => cases h
  | cons c attrs ih =>
    rw [replaceFirst]
    by_cases hc : c.key = a.key
    · rw [if_pos hc, List.filter_cons_of_pos (by simp)]
      rw [List.filter_cons_of_pos (by simpa using hc), List.cons.injEq] at h
      rw [h.2]
    · rw [if_neg hc, List.filter_cons_of_neg (by simpa using hc)]
      rw [List.filter_cons_of_neg (by simpa using hc)] at h
      exact ih h

/-- Adding an attribute changes nothing under other keys. -/
theorem filter_addOnce_of_not (h : p a.key = false) (attrs : List Attribute) :
    (addOnce a attrs).filter (p ·.key) = attrs.filter (p ·.key) := by
  rw [addOnce]
  split
  · rfl
  · split
    · exact filter_replaceFirst_of_not h attrs
    · rw [List.filter_append, List.filter_cons_of_neg (by simpa using h), List.filter_nil,
        List.append_nil]

theorem filter_self (a : Attribute) : [a].filter (·.key == a.key) = [a] :=
  List.filter_cons_of_pos (by simp)

theorem hasKey_eq_false : hasKey key attrs = false ↔ attrs.filter (·.key == key) = [] := by
  rw [hasKey, List.any_eq_false, List.filter_eq_nil_iff]

/-- The first attribute of its key is all that is said under it. -/
theorem filter_addOnce_of_nil (h : attrs.filter (·.key == a.key) = []) :
    (addOnce a attrs).filter (·.key == a.key) = [a] := by
  have hmem : a ∉ attrs := by
    intro hmem
    have hin : a ∈ attrs.filter (·.key == a.key) :=
      List.mem_filter.mpr ⟨hmem, beq_self_eq_true _⟩
    rw [h] at hin
    cases hin
  rw [addOnce, if_neg hmem, hasKey_eq_false.mpr h, Bool.and_false, if_neg Bool.false_ne_true,
    List.filter_append, h, filter_self, List.nil_append]

/-- Adding an attribute whose key may stand only once settles the value. -/
theorem filter_addOnce_of_isSingle (hsingle : a.isSingle = true)
    (h : (attrs.filter (·.key == a.key)).length ≤ 1) :
    (addOnce a attrs).filter (·.key == a.key) = [a] := by
  cases hfilter : attrs.filter (·.key == a.key) with
  | nil => exact filter_addOnce_of_nil hfilter
  | cons b more =>
    rw [hfilter, List.length_cons] at h
    obtain rfl : more = [] :=
      List.eq_nil_of_length_eq_zero (Nat.le_zero.mp (Nat.le_of_succ_le_succ h))
    rw [addOnce]
    split
    · rename_i hmem
      have hin : a ∈ attrs.filter (·.key == a.key) :=
        List.mem_filter.mpr ⟨hmem, beq_self_eq_true _⟩
      rw [hfilter] at hin
      rw [hfilter, List.mem_singleton.mp hin]
    · have hhas : hasKey a.key attrs = true := by
        rw [← Bool.not_eq_false, hasKey_eq_false, hfilter]
        exact List.cons_ne_nil b []
      rw [hsingle, hhas, Bool.and_self, if_pos rfl, filter_replaceFirst hfilter]

/-- Adding an attribute and reading its key can be exchanged. -/
theorem filter_addOnce (a : Attribute) (attrs : List Attribute) :
    (addOnce a attrs).filter (·.key == a.key) = addOnce a (attrs.filter (·.key == a.key)) := by
  have hmem : a ∈ attrs.filter (·.key == a.key) ↔ a ∈ attrs := by simp
  have hhas : hasKey a.key (attrs.filter (·.key == a.key)) = hasKey a.key attrs := by
    simp [hasKey]
  rw [addOnce, addOnce, hhas]
  by_cases ha : a ∈ attrs
  · rw [if_pos ha, if_pos (hmem.mpr ha)]
  · rw [if_neg ha, if_neg (mt hmem.mp ha)]
    split
    · rename_i hreplace
      cases hfilter : attrs.filter (·.key == a.key) with
      | nil =>
        rw [hasKey_eq_false.mpr hfilter, Bool.and_false] at hreplace
        cases hreplace
      | cons b more =>
        have hb : b.key = a.key := by
          have hin : b ∈ attrs.filter (·.key == a.key) := hfilter ▸ List.mem_cons_self
          exact eq_of_beq (List.mem_filter.mp hin).2
        rw [filter_replaceFirst hfilter, replaceFirst, if_pos hb]
    · rw [List.filter_append, filter_self]

theorem addAllOnce_append (as bs attrs : List Attribute) :
    addAllOnce (as ++ bs) attrs = addAllOnce bs (addAllOnce as attrs) :=
  List.foldl_append

/-! ### Adding again -/

theorem addOnce_of_mem (h : a ∈ attrs) : addOnce a attrs = attrs := if_pos h

theorem mem_replaceFirst_self (h : hasKey a.key attrs = true) : a ∈ replaceFirst a attrs := by
  induction attrs with
  | nil => cases h
  | cons c attrs ih =>
    rw [replaceFirst]
    split
    · exact List.mem_cons_self
    · rename_i hc
      rw [hasKey, List.any_cons, beq_false_of_ne hc, Bool.false_or] at h
      exact List.mem_cons_of_mem c (ih h)

theorem mem_addOnce_self (a : Attribute) (attrs : List Attribute) : a ∈ addOnce a attrs := by
  rw [addOnce]
  split
  · assumption
  · split
    · rename_i hreplace
      exact mem_replaceFirst_self (Bool.and_eq_true_iff.mp hreplace).2
    · exact List.mem_append_right attrs List.mem_cons_self

/-- Adding replaces only what the new attribute contradicts. -/
theorem mem_addOnce_of_mem (hb : b ∈ attrs) (h : b.key = a.key → a.isSingle = false) :
    b ∈ addOnce a attrs := by
  by_cases hkey : b.key = a.key
  · rw [addOnce, h hkey, Bool.false_and, if_neg Bool.false_ne_true]
    split
    · exact hb
    · exact List.mem_append_left [a] hb
  · have hframe : (addOnce a attrs).filter (·.key == b.key) = attrs.filter (·.key == b.key) :=
      filter_addOnce_of_not (p := (· == b.key)) (beq_false_of_ne (Ne.symm hkey)) attrs
    have hin : b ∈ attrs.filter (·.key == b.key) :=
      List.mem_filter.mpr ⟨hb, beq_self_eq_true _⟩
    rw [← hframe] at hin
    exact (List.mem_filter.mp hin).1

/-- Whether no attribute of a list contradicts another: under a key that may stand only once they
say the same. -/
def Compatible (as : List Attribute) : Prop :=
  ∀ a ∈ as, ∀ b ∈ as, b.key = a.key → a.isSingle = true → b = a

theorem compatible_of_open {as : List Attribute} (h : ∀ a ∈ as, a.isSingle = false) :
    Compatible as := fun a ha _ _ _ hsingle ↦ by
  rw [h a ha] at hsingle
  cases hsingle

/-- Of attributes that do not contradict each other, each stands there in the end. -/
theorem subset_addAllOnce {as : List Attribute} (h : Compatible as) (attrs : List Attribute) :
    as ⊆ addAllOnce as attrs := by
  -- each is added, and none of those after it replaces it
  induction as using List.reverseRecOn with
  | nil => exact List.nil_subset _
  | append_singleton as a ih =>
    have hbefore := ih fun b hb c hc ↦
      h b (List.mem_append_left [a] hb) c (List.mem_append_left [a] hc)
    rw [addAllOnce_append]
    change as ++ [a] ⊆ addOnce a (addAllOnce as attrs)
    refine List.append_subset.mpr ⟨fun b hb ↦ ?_,
      List.cons_subset.mpr ⟨mem_addOnce_self a _, List.nil_subset _⟩⟩
    by_cases hba : b = a
    · rw [hba]
      exact mem_addOnce_self a _
    · refine mem_addOnce_of_mem (hbefore hb) fun hkey ↦ Bool.eq_false_iff.mpr fun hsingle ↦ hba ?_
      exact h a (List.mem_append_right as List.mem_cons_self) b (List.mem_append_left [a] hb) hkey
        hsingle

theorem addAllOnce_of_subset {as : List Attribute} (h : as ⊆ attrs) :
    addAllOnce as attrs = attrs := by
  induction as with
  | nil => rfl
  | cons a as ih =>
    rw [List.cons_subset] at h
    change addAllOnce as (addOnce a attrs) = attrs
    rw [addOnce_of_mem h.1, ih h.2]

/-- **Adding again changes nothing**, whatever stood there before, if no attribute that is added
contradicts another. -/
theorem addAllOnce_again {as : List Attribute} (h : Compatible as) (attrs : List Attribute) :
    addAllOnce as (addAllOnce as attrs) = addAllOnce as attrs :=
  addAllOnce_of_subset (subset_addAllOnce h attrs)

/-! ### Adding to nothing -/

/-- Of attributes that may stand often, each stands once in the end, in order. -/
theorem addAllOnce_of_open {as : List Attribute} (h : ∀ a ∈ as, a.isSingle = false) :
    addAllOnce as [] = as.eraseDups := by
  -- what the last one finds is what those before it leave
  induction as using List.reverseRecOn with
  | nil => rfl
  | append_singleton as a ih =>
    have hbefore := ih fun b hb ↦ h b (List.mem_append_left [a] hb)
    have hopen := h a (List.mem_append_right as List.mem_cons_self)
    rw [addAllOnce_append, hbefore, List.eraseDups_append]
    change addOnce a as.eraseDups = _
    rw [addOnce, hopen, Bool.false_and, if_neg Bool.false_ne_true]
    by_cases ha : a ∈ as
    · simp [List.removeAll, ha]
    · simp [List.removeAll, ha, List.eraseDups_cons]

theorem nodup_addAllOnce_of_open {as : List Attribute} (h : ∀ a ∈ as, a.isSingle = false)
    (hattrs : attrs.Nodup) : (addAllOnce as attrs).Nodup := by
  induction as generalizing attrs with
  | nil => exact hattrs
  | cons a as ih =>
    refine ih (fun b hb ↦ h b (List.mem_cons_of_mem a hb)) ?_
    change (addOnce a attrs).Nodup
    rw [addOnce, h a List.mem_cons_self, Bool.false_and, if_neg Bool.false_ne_true]
    split
    · exact hattrs
    · rename_i hnot
      refine List.nodup_append.mpr ⟨hattrs, List.pairwise_singleton _ a, fun b hb c hc heq ↦
        hnot ?_⟩
      rw [← List.mem_singleton.mp hc, ← heq]
      exact hb

/-- Of attributes with one key that may stand only once, the last is left. -/
theorem addAllOnce_of_single {as : List Attribute}
    (h : ∀ a ∈ as, a.key = key ∧ a.isSingle = true) : addAllOnce as [] = as.getLast?.toList := by
  induction as using List.reverseRecOn with
  | nil => rfl
  | append_singleton as a ih =>
    have hbefore := ih fun b hb ↦ h b (List.mem_append_left [a] hb)
    obtain ⟨rfl, hsingle⟩ := h a (List.mem_append_right as List.mem_cons_self)
    rw [addAllOnce_append, hbefore, List.getLast?_concat]
    change addOnce a as.getLast?.toList = [a]
    cases hlast : as.getLast? with
    | none => exact (if_neg List.not_mem_nil).trans (by simp [hasKey])
    | some b =>
      have hb := (h b (List.mem_append_left [a] (List.mem_of_getLast? hlast))).1
      by_cases hab : a = b
      · subst hab
        exact if_pos List.mem_cons_self
      · simp [addOnce, hab, hsingle, hasKey, hb, replaceFirst]

end Attribute

/-! ## Sections -/

namespace Section

variable {m m' : Section} {a : Attribute} {as : List Attribute} {key format : String}

theorem attr?_eq (m : Section) (key : String) :
    m.attr? key = (m.attrsOf key).head?.map Attribute.content := by
  rw [attr?, Attribute.lookup, attrsOf, List.head?_filter]

theorem attr?_of_attrsOf (h : m.attrsOf a.key = [a]) : m.attr? a.key = some a.content := by
  rw [attr?_eq, h]
  rfl

theorem addAll_append (m : Section) (as bs : List Attribute) :
    m.addAll (as ++ bs) = (m.addAll as).addAll bs := by
  rw [addAll, addAll, addAll, Attribute.addAllOnce, List.foldl_append]
  rfl

theorem addAll_again (h : Attribute.Compatible as) (m : Section) :
    (m.addAll as).addAll as = m.addAll as :=
  congrArg (fun attrs ↦ { m with attrs := attrs }) (Attribute.addAllOnce_again h m.attrs)

theorem mem_addAll (h : a ∈ (m.addAll as).attrs) : a ∈ as ∨ a ∈ m.attrs := by
  induction as generalizing m with
  | nil => exact Or.inr h
  | cons b as ih =>
    rcases ih (m := m.add b) h with hin | hin
    · exact Or.inl (List.mem_cons_of_mem b hin)
    · rcases Attribute.mem_addOnce hin with rfl | hin
      · exact Or.inl List.mem_cons_self
      · exact Or.inr hin

/-! ### The frame -/

theorem attrsOf_add_of_ne (h : a.key ≠ key) (m : Section) :
    (m.add a).attrsOf key = m.attrsOf key :=
  Attribute.filter_addOnce_of_not (p := (· == key)) (beq_eq_false_iff_ne.mpr h) m.attrs

theorem attrsOf_addAll_of_ne (h : ∀ a ∈ as, a.key ≠ key) (m : Section) :
    (m.addAll as).attrsOf key = m.attrsOf key := by
  induction as generalizing m with
  | nil => rfl
  | cons a as ih =>
    exact (ih (fun b hb ↦ h b (List.mem_cons_of_mem a hb)) (m.add a)).trans
      (attrsOf_add_of_ne (h a List.mem_cons_self) m)

theorem attrsOf_addAll_eq (m : Section) (as : List Attribute) (key : String) :
    (m.addAll as).attrsOf key =
      Attribute.addAllOnce (as.filter (·.key == key)) (m.attrsOf key) := by
  induction as generalizing m with
  | nil => rfl
  | cons a as ih =>
    refine (ih (m.add a)).trans ?_
    by_cases hkey : a.key = key
    · subst hkey
      rw [List.filter_cons_of_pos (by simp)]
      exact congrArg _ (Attribute.filter_addOnce a m.attrs)
    · rw [attrsOf_add_of_ne hkey, List.filter_cons_of_neg (by simpa using hkey)]

theorem attrsOf_remove_of_ne {gone : String} (h : gone ≠ key) (m : Section) :
    (m.remove gone).attrsOf key = m.attrsOf key := by
  rw [attrsOf, attrsOf, remove, List.filter_filter]
  refine List.filter_congr fun a _ ↦ ?_
  by_cases hkey : a.key = key
  · simpa [hkey] using Ne.symm h
  · simp [hkey]

theorem ofKey?_key (d : Direction) : Direction.ofKey? d.key = some d := by
  cases d <;> decide

theorem key_of_ofKey? {d : Direction} (h : Direction.ofKey? key = some d) : key = d.key := by
  rw [Direction.ofKey?] at h
  split_ifs at h with hkey hkey hkey hkey <;> cases h <;> exact hkey

theorem attrsOf_setDirection (h : Direction.ofKey? key = none) (m : Section) (d : Direction) :
    (m.setDirection d).attrsOf key = m.attrsOf key := by
  have hne : d.key ≠ key := fun hkey ↦ by
    rw [← hkey, ofKey?_key] at h
    cases h
  rw [attrsOf, attrsOf, setDirection, List.filter_append, List.filter_filter,
    List.filter_cons_of_neg (by simpa [Attribute.flag] using hne), List.filter_nil, List.append_nil]
  refine List.filter_congr fun a _ ↦ ?_
  by_cases hkey : a.key = key
  · simp [hkey, Attribute.direction?, h]
  · simp [hkey]

/-! ### Single values -/

/-- Whether every key that may stand only once does. -/
def Tidy (m : Section) : Prop := ∀ key ∈ Attribute.singleKeys, (m.attrsOf key).length ≤ 1

theorem tidy_of_nil (h : m.attrs = []) : m.Tidy := by
  intro key _
  rw [attrsOf, h]
  exact Nat.zero_le 1

theorem isSingle_of_mem (h : a.key ∈ Attribute.singleKeys) : a.isSingle = true := by
  rw [Attribute.isSingle, List.contains_iff_mem.mpr h, Bool.true_or]

theorem attrsOf_add_of_nil (h : m.attrsOf a.key = []) : (m.add a).attrsOf a.key = [a] :=
  Attribute.filter_addOnce_of_nil h

theorem attrsOf_add (hm : m.Tidy) (h : a.key ∈ Attribute.singleKeys) :
    (m.add a).attrsOf a.key = [a] :=
  Attribute.filter_addOnce_of_isSingle (isSingle_of_mem h) (hm a.key h)

theorem Tidy.add (hm : m.Tidy) (a : Attribute) : (m.add a).Tidy := by
  intro key hkey
  by_cases h : a.key = key
  · subst h
    rw [attrsOf_add hm hkey]
    exact Nat.le_refl 1
  · rw [attrsOf_add_of_ne h]
    exact hm key hkey

theorem Tidy.addAll (hm : m.Tidy) (as : List Attribute) : (m.addAll as).Tidy := by
  induction as generalizing m with
  | nil => exact hm
  | cons a as ih => exact ih (hm.add a)

/-- Dropping attributes and reading a key can be exchanged. -/
theorem attrsOf_filter (m : Section) (p : Attribute → Bool) (key : String) :
    attrsOf { m with attrs := m.attrs.filter p } key = (m.attrsOf key).filter p := by
  rw [attrsOf, attrsOf, List.filter_filter, List.filter_filter]
  exact List.filter_congr fun a _ ↦ Bool.and_comm _ _

theorem Tidy.filter (hm : m.Tidy) (p : Attribute → Bool) :
    Tidy { m with attrs := m.attrs.filter p } := by
  intro key hkey
  rw [attrsOf_filter]
  exact Nat.le_trans (List.length_filter_le p _) (hm key hkey)

theorem Tidy.remove (hm : m.Tidy) (gone : String) : (m.remove gone).Tidy := hm.filter _

theorem Tidy.setDirection (hm : m.Tidy) (d : Direction) : (m.setDirection d).Tidy := by
  intro key hkey
  have hnone : ∀ key ∈ Attribute.singleKeys, Direction.ofKey? key = none := by decide
  rw [attrsOf_setDirection (hnone key hkey)]
  exact hm key hkey

/-- Of several attributes that are added, one whose key may stand only once is all that the section
says under that key, if no other contradicts it. -/
theorem attrsOf_addAll (hm : m.Tidy) (ha : a ∈ as) (hkey : a.key ∈ Attribute.singleKeys)
    (h : ∀ b ∈ as, b.key = a.key → b = a) : (m.addAll as).attrsOf a.key = [a] := by
  induction as generalizing m with
  | nil => cases ha
  | cons b as ih =>
    by_cases hin : a ∈ as
    · exact ih (hm.add b) hin fun c hc ↦ h c (List.mem_cons_of_mem b hc)
    · obtain rfl : a = b := (List.mem_cons.mp ha).resolve_right hin
      have hothers : ∀ c ∈ as, c.key ≠ a.key := fun c hc hck ↦
        hin (h c (List.mem_cons_of_mem a hc) hck ▸ hc)
      exact (attrsOf_addAll_of_ne hothers (m.add a)).trans (attrsOf_add hm hkey)

/-! ### Directions -/

/-- The attributes that declare a direction, in order. -/
def directions (m : Section) : List Attribute := m.attrs.filter (·.direction?.isSome)

theorem directions_add (h : a.direction? = none) (m : Section) :
    (m.add a).directions = m.directions := by
  refine Attribute.filter_addOnce_of_not (p := fun key ↦ (Direction.ofKey? key).isSome) ?_ m.attrs
  rw [Option.isSome_eq_false_iff, Option.isNone_iff_eq_none]
  exact h

theorem directions_addAll (h : ∀ a ∈ as, a.direction? = none) (m : Section) :
    (m.addAll as).directions = m.directions := by
  induction as generalizing m with
  | nil => rfl
  | cons a as ih =>
    exact (ih (fun b hb ↦ h b (List.mem_cons_of_mem a hb)) (m.add a)).trans
      (directions_add (h a List.mem_cons_self) m)

theorem directions_setDirection (m : Section) (d : Direction) :
    (m.setDirection d).directions = [.flag d.key] := by
  have hothers : (m.attrs.filter (·.direction?.isNone)).filter (·.direction?.isSome) = [] := by
    rw [List.filter_filter, List.filter_eq_nil_iff]
    intro a _
    cases a.direction? <;> simp
  have hset : (Attribute.flag d.key).direction?.isSome = true := by
    rw [Attribute.direction?, Attribute.flag, ofKey?_key]
    rfl
  rw [directions, setDirection, List.filter_append, hothers]
  exact List.filter_cons_of_pos (p := fun a : Attribute ↦ a.direction?.isSome) hset

theorem direction_eq (m : Section) :
    m.direction = (m.directions.findSome? Attribute.direction?).getD .sendRecv := by
  have hsame : (fun a : Attribute ↦ if a.direction?.isSome then a.direction? else none) =
      Attribute.direction? := by
    funext a
    cases a.direction? <;> rfl
  rw [direction, directions, ← List.head?_filterMap, ← List.head?_filterMap, List.filterMap_filter,
    hsame]

theorem direction_of_directions {d : Direction} (h : m.directions = [.flag d.key]) :
    m.direction = d := by
  rw [direction_eq, h, List.findSome?_singleton]
  change (Direction.ofKey? d.key).getD _ = d
  rw [ofKey?_key]
  rfl

theorem length_directions_remove (m : Section) (gone : String) :
    (m.remove gone).directions.length ≤ m.directions.length :=
  (List.filter_sublist.filter _).length_le

/-! ### Values that may stand often -/

/-- Under a key that may stand often, what is added to nothing stands there once each, in order. -/
theorem attrsOf_addAll_of_open (h : ∀ a ∈ as, a.key = key ∧ a.isSingle = false)
    (hnone : m.attrsOf key = []) : (m.addAll as).attrsOf key = as.eraseDups := by
  have hall : as.filter (·.key == key) = as :=
    List.filter_eq_self.mpr fun a ha ↦ beq_iff_eq.mpr (h a ha).1
  rw [attrsOf_addAll_eq, hall, hnone, Attribute.addAllOnce_of_open fun a ha ↦ (h a ha).2]

/-! ### Lines of a format -/

/-- Whether an attribute is a line for a format under a key. -/
def isLineFor (key format : String) (a : Attribute) : Bool :=
  a.key == key && Text.firstWord a.content == format

theorem isLineFor_of_key_ne (h : a.key ≠ key) : isLineFor key format a = false := by
  simp [isLineFor, h]

theorem attrFor?_congr (h : m'.attrsOf key = m.attrsOf key) (format : String) :
    m'.attrFor? key format = m.attrFor? key format := by
  rw [attrFor?, attrFor?, h]

theorem of_attrFor? (h : m.attrFor? key format = some a) :
    a.key = key ∧ Text.firstWord a.content = format := by
  have hword := List.find?_some h
  have hkey := (List.mem_filter.mp (List.mem_of_find?_eq_some h)).2
  exact ⟨eq_of_beq hkey, eq_of_beq hword⟩

/-- Under a key that may stand often, adding an attribute is seen by those who have found none. -/
theorem attrFor?_add (h : a.isSingle = false) (m : Section) (format : String) :
    (m.add a).attrFor? a.key format = (m.attrFor? a.key format).or
      (if Text.firstWord a.content == format then some a else none) := by
  rw [attrFor?, attrFor?, attrsOf, attrsOf, add]
  dsimp only
  rw [Attribute.addOnce]
  split
  · rename_i hmem
    cases hfind : (m.attrs.filter (·.key == a.key)).find? fun b ↦
        Text.firstWord b.content == format with
    | some b => rfl
    | none =>
      have hin : a ∈ m.attrs.filter (·.key == a.key) :=
        List.mem_filter.mpr ⟨hmem, beq_self_eq_true _⟩
      rw [Option.none_or, if_neg (List.find?_eq_none.mp hfind a hin)]
  · rw [h, Bool.false_and, if_neg Bool.false_ne_true, List.filter_append,
      Attribute.filter_self, List.find?_append, List.find?_singleton]

/-- Of several attributes that are added, the first that fits is seen by those who have found
none. -/
theorem attrFor?_addAll (h : ∀ a ∈ as, a.key = key → a.isSingle = false) (m : Section)
    (format : String) : (m.addAll as).attrFor? key format = (m.attrFor? key format).or
      (as.find? (isLineFor key format)) := by
  induction as generalizing m with
  | nil => exact (Option.or_none).symm
  | cons a as ih =>
    have hrest := ih (fun b hb ↦ h b (List.mem_cons_of_mem a hb)) (m.add a)
    refine hrest.trans ?_
    by_cases hkey : a.key = key
    · subst hkey
      rw [attrFor?_add (h a List.mem_cons_self rfl), Option.or_assoc, List.find?_cons, isLineFor,
        beq_self_eq_true, Bool.true_and]
      cases Text.firstWord a.content == format <;> rfl
    · rw [attrFor?_congr (attrsOf_add_of_ne hkey m), List.find?_cons_of_neg
        (by rw [isLineFor_of_key_ne hkey]; exact Bool.false_ne_true)]

/-- Where lines are made format by format, those for a format are found among its own. -/
theorem find?_flatMap_lines {lines : String → List Attribute} {formats : List String}
    (hf : format ∈ formats)
    (h : ∀ g ∈ formats, g ≠ format → (lines g).find? (isLineFor key format) = none) :
    (formats.flatMap lines).find? (isLineFor key format) =
      (lines format).find? (isLineFor key format) := by
  rw [List.find?_flatMap]
  induction formats with
  | nil => cases hf
  | cons g formats ih =>
    have hrest := fun g' hg' ↦ h g' (List.mem_cons_of_mem g hg')
    rw [List.findSome?_cons]
    by_cases hg : g = format
    · subst hg
      cases hfind : (lines g).find? (isLineFor key g) with
      | some a => rfl
      | none =>
        refine List.findSome?_eq_none_iff.mpr fun g' hg' ↦ ?_
        by_cases heq : g' = g
        · rw [heq, hfind]
        · exact hrest g' hg' heq
    · rw [h g List.mem_cons_self hg]
      exact ih ((List.mem_cons.mp hf).resolve_left (Ne.symm hg)) hrest

/-! ### Keys -/

/-- Whether every attribute has a key. -/
def Keyed (m : Section) : Prop := ∀ a ∈ m.attrs, a.key ≠ ""

theorem Keyed.add (hm : m.Keyed) (ha : a.key ≠ "") : (m.add a).Keyed := by
  intro b hb
  rcases Attribute.mem_addOnce hb with rfl | hb
  · exact ha
  · exact hm b hb

theorem Keyed.addAll (hm : m.Keyed) (has : ∀ a ∈ as, a.key ≠ "") : (m.addAll as).Keyed := by
  induction as generalizing m with
  | nil => exact hm
  | cons a as ih =>
    exact ih (hm.add (has a List.mem_cons_self)) fun b hb ↦ has b (List.mem_cons_of_mem a hb)

theorem Keyed.filter (hm : m.Keyed) (p : Attribute → Bool) :
    Keyed { m with attrs := m.attrs.filter p } :=
  fun a ha ↦ hm a (List.mem_filter.mp ha).1

theorem Keyed.remove (hm : m.Keyed) (gone : String) : (m.remove gone).Keyed := hm.filter _

theorem Keyed.setDirection (hm : m.Keyed) (d : Direction) : (m.setDirection d).Keyed := by
  intro a ha
  rcases List.mem_append.mp ha with ha | ha
  · exact hm a (List.mem_filter.mp ha).1
  · rw [List.mem_singleton.mp ha]
    cases d <;> decide

end Section

end OfferAnswer
