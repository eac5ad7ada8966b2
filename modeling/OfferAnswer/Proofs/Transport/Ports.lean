import OfferAnswer.Transport.Binding
import Mathlib.Data.List.Nodup
import Mathlib.Data.List.Perm.Basic

/-!
# Accounting for ports

What the allocator hands out and takes back, measured against a list of the ports somebody holds.
`PortAllocator.Accounts a held` says that the ports in use are those of the list, each held once
and none of them 0. Everything above this layer — endpoints, bindings, several bindings on one
allocator — only moves ports into and out of such a list.

## Why a list of holders

The ports of one endpoint are known from the endpoint alone, those of a binding from its endpoints.
Keeping the allocator in step with a *list* lets one fact serve at every level: a holder is a piece
of the list, the rest of the world is another piece, and permutations bring the piece in question
to the front.
-/

namespace OfferAnswer

namespace PortAllocator

/-! ## The ports in use as a list -/

theorem insert_perm {p : UInt16} {used : List UInt16} (h : p ∉ used) :
    (insert p used).Perm (p :: used) := by
  induction used with
  | nil => exact List.Perm.refl _
  | cons r rs ih =>
    rw [List.mem_cons, not_or] at h
    rw [insert]
    split
    · exact List.Perm.refl _
    · rw [if_neg h.1]
      exact ((ih h.2).cons r).trans (List.Perm.swap p r rs)

theorem mem_insert {p q : UInt16} {used : List UInt16} :
    q ∈ insert p used ↔ q = p ∨ q ∈ used := by
  induction used with
  | nil => simp [insert]
  | cons r rs ih =>
    rw [insert]
    split
    · exact List.mem_cons
    · split
      · rename_i hpr
        rw [hpr, List.mem_cons]
        exact or_self_left.symm
      · rw [List.mem_cons, ih, List.mem_cons]
        exact or_left_comm

/-- Whoever does not look at a port does not see it put in. -/
theorem filter_insert_of_neg {p : UInt16} {keep : UInt16 → Bool} (h : keep p = false)
    (used : List UInt16) : (insert p used).filter keep = used.filter keep := by
  induction used with
  | nil => simp [insert, h]
  | cons r rs ih =>
    rw [insert]
    split
    · rw [List.filter_cons_of_neg (by simp [h])]
    · split
      · rfl
      · rw [List.filter_cons, List.filter_cons, ih]

theorem filter_insert {p : UInt16} {used : List UInt16} (h : p ∉ used) :
    (insert p used).filter (· != p) = used := by
  rw [filter_insert_of_neg (by simp)]
  exact List.filter_eq_self.mpr fun q hq ↦ bne_iff_ne.mpr fun hqp ↦ h (hqp ▸ hq)

theorem used_releaseAll (ps : List UInt16) (a : PortAllocator) :
    (ps.foldl release a).used = a.used.filter (· ∉ ps) := by
  induction ps generalizing a with
  | nil => simp
  | cons p ps ih =>
    rw [List.foldl_cons, ih, release, List.filter_filter]
    refine List.filter_congr fun q _ ↦ ?_
    simp only [List.mem_cons, not_or, Bool.decide_and, decide_not, bne]
    rw [Bool.and_comm, beq_eq_decide]

/-! ## Free ports -/

/-- The ports of a range that can be handed out, in increasing order. -/
def freePorts (a : PortAllocator) (r : PortRange) : List UInt16 :=
  ((List.range' r.min.toNat r.length).filter fun n ↦ n ≠ 0 ∧ UInt16.ofNat n ∉ a.used).map
    UInt16.ofNat

theorem toNat_ofNat_of_mem_range {r : PortRange} {n : Nat}
    (h : n ∈ List.range' r.min.toNat r.length) : (UInt16.ofNat n).toNat = n := by
  have hmax := r.max.toNat_lt_size
  rw [List.mem_range'_1, PortRange.length] at h
  exact UInt16.toNat_ofNat_of_lt' (by omega)

theorem pairwise_freePorts (a : PortAllocator) (r : PortRange) :
    (a.freePorts r).Pairwise (· < ·) := by
  rw [freePorts, List.pairwise_map]
  refine (List.Pairwise.filter _ (List.pairwise_lt_range' 1)).imp_of_mem fun hm hn hlt ↦ ?_
  rwa [UInt16.lt_iff_toNat_lt, toNat_ofNat_of_mem_range (List.mem_filter.mp hm).1,
    toNat_ofNat_of_mem_range (List.mem_filter.mp hn).1]

theorem nodup_freePorts (a : PortAllocator) (r : PortRange) : (a.freePorts r).Nodup :=
  (a.pairwise_freePorts r).imp UInt16.ne_of_lt

/-- A free port is a port of the range other than 0 that is not in use. -/
theorem mem_freePorts_iff {a : PortAllocator} {r : PortRange} {p : UInt16} :
    p ∈ a.freePorts r ↔ r.min ≤ p ∧ p ≤ r.max ∧ p ≠ 0 ∧ p ∉ a.used := by
  have hrange (n : Nat) : n ∈ List.range' r.min.toNat r.length ↔
      r.min.toNat ≤ n ∧ n ≤ r.max.toNat := by
    rw [List.mem_range'_1, PortRange.length]
    omega
  rw [freePorts, List.mem_map, UInt16.le_iff_toNat_le, UInt16.le_iff_toNat_le]
  simp only [List.mem_filter, decide_eq_true_eq]
  constructor
  · rintro ⟨n, ⟨hn, hzero, hfree⟩, rfl⟩
    have hnum := toNat_ofNat_of_mem_range hn
    refine ⟨hnum.symm ▸ ((hrange n).mp hn).1, hnum.symm ▸ ((hrange n).mp hn).2, fun hp ↦ hzero ?_,
      hfree⟩
    rw [← hnum, hp]
    rfl
  · rintro ⟨hmin, hmax, hzero, hfree⟩
    refine ⟨p.toNat, ⟨(hrange _).mpr ⟨hmin, hmax⟩, fun hp ↦ hzero ?_, ?_⟩, UInt16.ofNat_toNat⟩
    · rw [← UInt16.toNat_inj, hp]
      rfl
    · rwa [UInt16.ofNat_toNat]

/-- The more is in use, the less is free. -/
theorem freePorts_sublist {a b : PortAllocator} (h : a.used ⊆ b.used) (r : PortRange) :
    (b.freePorts r).Sublist (a.freePorts r) := by
  refine List.Sublist.map _ (List.monotone_filter_right _ fun n hn ↦ ?_)
  rw [decide_eq_true_eq] at hn ⊢
  exact ⟨hn.1, fun hmem ↦ hn.2 (h hmem)⟩

/-! ## Taking one port -/

/-- The search goes through a run of numbers up to the first that is free. -/
theorem firstFree_eq_head? (used : List UInt16) (count start : Nat) : firstFree used count start =
    (((List.range' start count).filter fun n ↦ n ≠ 0 ∧ UInt16.ofNat n ∉ used).map
      UInt16.ofNat).head? := by
  induction count generalizing start with
  | zero => rfl
  | succ count ih =>
    rw [firstFree, List.range'_succ]
    split
    · rename_i hfree
      rw [List.filter_cons_of_pos (by simpa using hfree)]
      rfl
    · rename_i htaken
      rw [List.filter_cons_of_neg (by simpa using htaken)]
      exact ih (start + 1)

theorem firstFree_range (a : PortAllocator) (r : PortRange) :
    firstFree a.used r.length r.min.toNat = (a.freePorts r).head? := firstFree_eq_head? _ _ _

theorem allocate_of_nil {a : PortAllocator} {r : PortRange} (h : a.freePorts r = []) :
    a.allocate r = (.error (.noPorts r.min r.max), a) := by
  rw [allocate, firstFree_range, h]
  rfl

theorem allocate_of_cons {a : PortAllocator} {r : PortRange} {p : UInt16} {ps : List UInt16}
    (h : a.freePorts r = p :: ps) : a.allocate r = (.ok p, { a with used := insert p a.used }) := by
  rw [allocate, firstFree_range, h]
  rfl

/-- A failed attempt takes nothing, and the lack of ports is the only reason for one. -/
theorem allocate_error {a b : PortAllocator} {r : PortRange} {e : NegotiationError}
    (h : a.allocate r = (.error e, b)) : b = a ∧ e = .noPorts r.min r.max := by
  cases hfree : a.freePorts r with
  | nil =>
    rw [allocate_of_nil hfree] at h
    cases h
    exact ⟨rfl, rfl⟩
  | cons p ps =>
    rw [allocate_of_cons hfree] at h
    cases h

theorem allocate_ok {a b : PortAllocator} {r : PortRange} {p : UInt16}
    (h : a.allocate r = (.ok p, b)) :
    p ≠ 0 ∧ p ∉ a.used ∧ b = { a with used := insert p a.used } := by
  cases hfree : a.freePorts r with
  | nil =>
    rw [allocate_of_nil hfree] at h
    cases h
  | cons q qs =>
    rw [allocate_of_cons hfree] at h
    cases h
    have hmem : p ∈ a.freePorts r := hfree ▸ List.mem_cons_self
    exact ⟨(mem_freePorts_iff.mp hmem).2.2.1, (mem_freePorts_iff.mp hmem).2.2.2, rfl⟩

/-- Giving back what was just taken restores the allocator itself. -/
theorem release_of_allocate {a b : PortAllocator} {r : PortRange} {p : UInt16}
    (h : a.allocate r = (.ok p, b)) : b.release p = a := by
  obtain ⟨-, hfree, rfl⟩ := allocate_ok h
  rw [release, filter_insert hfree]

theorem mem_used_of_allocate {a b : PortAllocator} {r : PortRange} {p q : UInt16}
    (h : a.allocate r = (.ok p, b)) : q ∈ b.used ↔ q = p ∨ q ∈ a.used := by
  obtain ⟨-, -, rfl⟩ := allocate_ok h
  exact mem_insert

/-- When the lowest free port is taken, the others stay free. -/
theorem freePorts_of_cons {a : PortAllocator} {r : PortRange} {p : UInt16} {ps : List UInt16}
    (h : a.freePorts r = p :: ps) : freePorts { a with used := insert p a.used } r = ps := by
  have hrest : freePorts { a with used := insert p a.used } r =
      (a.freePorts r).filter (· != p) := by
    rw [freePorts, freePorts, List.filter_map, List.filter_filter]
    refine congrArg (List.map _) (List.filter_congr fun n _ ↦ ?_)
    simp [mem_insert, bne, beq_eq_decide, Bool.and_left_comm]
  have hnodup := a.nodup_freePorts r
  rw [h, List.nodup_cons] at hnodup
  rw [hrest, h, List.filter_cons_of_neg (by simp)]
  exact List.filter_eq_self.mpr fun q hq ↦ bne_iff_ne.mpr fun hqp ↦ hnodup.1 (hqp ▸ hq)

/-! ## The ports somebody holds -/

/-- The ports in use are those of `held`, each of them held once, and none is 0. -/
structure Accounts (a : PortAllocator) (held : List UInt16) : Prop where
  /-- Nothing is in use that nobody holds, and nothing held is free. -/
  used_perm : a.used.Perm held
  /-- No port is held twice. -/
  nodup : held.Nodup
  /-- Port 0 is no port. -/
  zero_notMem : 0 ∉ held

namespace Accounts

variable {a b : PortAllocator} {held taken rest : List UInt16}

theorem initial : Accounts {} [] where
  used_perm := List.Perm.refl _
  nodup := List.nodup_nil
  zero_notMem := List.not_mem_nil

theorem of_perm (h : Accounts a held) (hp : held.Perm rest) : Accounts a rest where
  used_perm := h.used_perm.trans hp
  nodup := hp.nodup_iff.mp h.nodup
  zero_notMem := fun h0 ↦ h.zero_notMem (hp.mem_iff.mpr h0)

theorem mem_used_iff (h : Accounts a held) {p : UInt16} : p ∈ a.used ↔ p ∈ held :=
  h.used_perm.mem_iff

theorem allocate {r : PortRange} {p : UInt16} (h : Accounts a held)
    (ha : a.allocate r = (.ok p, b)) : Accounts b (p :: held) := by
  obtain ⟨hne, hfree, rfl⟩ := allocate_ok ha
  refine ⟨(insert_perm hfree).trans (h.used_perm.cons p), ?_, ?_⟩
  · exact List.nodup_cons.mpr ⟨fun hp ↦ hfree (h.mem_used_iff.mpr hp), h.nodup⟩
  · rintro (_ | ⟨_, h0⟩)
    · exact hne rfl
    · exact h.zero_notMem h0

theorem release {p : UInt16} (h : Accounts a (p :: rest)) : Accounts (a.release p) rest := by
  have hp : p ∉ rest := (List.nodup_cons.mp h.nodup).1
  refine ⟨?_, (List.nodup_cons.mp h.nodup).2, fun h0 ↦ h.zero_notMem (List.mem_cons_of_mem p h0)⟩
  have hfilter := h.used_perm.filter (· != p)
  rw [List.filter_cons_of_neg (by simp)] at hfilter
  have hrest : rest.filter (· != p) = rest :=
    List.filter_eq_self.mpr fun q hq ↦ bne_iff_ne.mpr fun hqp ↦ hp (hqp ▸ hq)
  rw [hrest] at hfilter
  exact hfilter

theorem releaseAll (h : Accounts a (taken ++ rest)) :
    Accounts (taken.foldl PortAllocator.release a) rest := by
  induction taken generalizing a with
  | nil => exact h
  | cons p ps ih => exact ih h.release

end Accounts

end PortAllocator

namespace TransportBinding

open PortAllocator

variable {a b : PortAllocator} {r : PortRange} {both : Bool}

/-! ## Taking the ports of an endpoint -/

/-- A section that gets no ports takes none: when the second of two is not to be had, the first
one is back. -/
theorem takePorts_error {e : NegotiationError} (h : takePorts a r both = (.error e, b)) :
    b = a ∧ e = .noPorts r.min r.max := by
  rw [takePorts] at h
  split at h
  · rename_i ha
    cases h
    exact allocate_error ha
  · rename_i ha
    split at h
    · split at h
      · rename_i hb
        cases h
        obtain ⟨rfl, he⟩ := allocate_error hb
        exact ⟨release_of_allocate ha, he⟩
      · cases h
    · cases h

/-- A section gets no ports exactly if it needs more than are free, and then it takes none. -/
theorem takePorts_cases (a : PortAllocator) (r : PortRange) (both : Bool) :
    ((a.freePorts r).length < (if both then 2 else 1) ∧
        takePorts a r both = (.error (.noPorts r.min r.max), a)) ∨
      ((if both then 2 else 1) ≤ (a.freePorts r).length ∧
        ∃ x b, takePorts a r both = (.ok x, b)) := by
  rw [takePorts]
  cases hfree : a.freePorts r with
  | nil =>
    rw [allocate_of_nil hfree]
    exact Or.inl ⟨by cases both <;> decide, rfl⟩
  | cons p ps =>
    rw [allocate_of_cons hfree]
    cases both with
    | false => exact Or.inr ⟨Nat.succ_le_succ (Nat.zero_le _), _, _, rfl⟩
    | true =>
      have hsecond := freePorts_of_cons hfree
      simp only [if_true]
      cases ps with
      | nil =>
        rw [allocate_of_nil hsecond]
        refine Or.inl ⟨Nat.lt_succ_self 1, ?_⟩
        -- the first one is back
        dsimp only
        rw [release_of_allocate (allocate_of_cons hfree)]
      | cons q qs =>
        rw [allocate_of_cons hsecond]
        exact Or.inr ⟨Nat.le_add_left 2 _, _, _, rfl⟩

theorem length_freePorts_lt {e : NegotiationError} (h : takePorts a r both = (.error e, b)) :
    (a.freePorts r).length < if both then 2 else 1 := by
  rcases takePorts_cases a r both with hshort | ⟨-, x, c, hok⟩
  · exact hshort.1
  · rw [hok] at h
    cases h

theorem takePorts_of_lt (h : (a.freePorts r).length < if both then 2 else 1) :
    takePorts a r both = (.error (.noPorts r.min r.max), a) := by
  rcases takePorts_cases a r both with hshort | henough
  · exact hshort.2
  · exact absurd henough.1 (Nat.not_le.mpr h)

theorem used_subset_takePorts (a : PortAllocator) (r : PortRange) (both : Bool) :
    a.used ⊆ (takePorts a r both).2.used := by
  rcases h : takePorts a r both with ⟨_ | ⟨rtp, rtcp⟩, b⟩
  · rw [(takePorts_error h).1]
    exact List.Subset.refl _
  · rw [takePorts] at h
    split at h
    · cases h
    · rename_i ha
      have hfirst : a.used ⊆ _ := fun q hq ↦ (mem_used_of_allocate ha).mpr (.inr hq)
      split at h
      · split at h
        · cases h
        · rename_i hb
          cases h
          exact fun q hq ↦ (mem_used_of_allocate hb).mpr (.inr (hfirst hq))
      · cases h
        exact hfirst

theorem takePorts_accounts {rtp : UInt16} {rtcp : Option UInt16} {held : List UInt16}
    (h : takePorts a r both = (.ok (rtp, rtcp), b)) (hacc : Accounts a held) :
    Accounts b (rtp :: rtcp.toList ++ held) := by
  rw [takePorts] at h
  split at h
  · cases h
  · rename_i ha
    split at h
    · split at h
      · cases h
      · rename_i hb
        cases h
        exact ((hacc.allocate ha).allocate hb).of_perm (List.Perm.swap _ _ _)
    · cases h
      exact hacc.allocate ha

theorem takePorts_ne_zero {rtp : UInt16} {rtcp : Option UInt16}
    (h : takePorts a r both = (.ok (rtp, rtcp), b)) : rtp ≠ 0 := by
  rw [takePorts] at h
  split at h
  · cases h
  · rename_i ha
    have hne := (allocate_ok ha).1
    split at h
    · split at h
      · cases h
      · cases h
        exact hne
    · cases h
      exact hne

end TransportBinding

end OfferAnswer
