import OfferAnswer.Proofs.Transport.Ports

/-!
# What a range gives

A port is taken as the lowest free one, so what successive calls return is settled by what is free
before the first of them: one after the other the free ports of the range, and after the last of
them an error for every further call. The list `PortAllocator.freePorts` is that run in advance. A
call takes its head and leaves its tail (`freePorts_of_cons`), and the rest is induction on the
number of calls.

The ports that were returned can be given back in any order, and more than once, since giving back a
port that is free does nothing. What matters is which ports are given back, and the allocator ends
as it began.
-/

namespace OfferAnswer.PortAllocator

variable {a : PortAllocator} {r : PortRange} {p : UInt16} {ps used back : List UInt16}

/-! ## Taking ports one after the other -/

/-- What successive calls on a range return, and the allocator after them. -/
def allocateTimes (r : PortRange) : Nat → PortAllocator →
    List (Except NegotiationError UInt16) × PortAllocator
  | 0, a => ([], a)
  | n + 1, a =>
    let (x, b) := a.allocate r
    let (xs, c) := allocateTimes r n b
    (x :: xs, c)

/-- Puts ports into use, one after the other. -/
def insertAll (ps used : List UInt16) : List UInt16 := ps.foldl (fun used p ↦ insert p used) used

theorem mem_insertAll : p ∈ insertAll ps used ↔ p ∈ ps ∨ p ∈ used := by
  induction ps generalizing used with
  | nil => simp [insertAll]
  | cons q ps ih =>
    change p ∈ insertAll ps (insert q used) ↔ _
    rw [ih, mem_insert, List.mem_cons]
    exact or_left_comm.trans or_assoc.symm

/-- The calls return the free ports from the lowest on, and then fail. -/
theorem allocateTimes_eq (r : PortRange) (n : Nat) (a : PortAllocator) :
    allocateTimes r n a =
      (((a.freePorts r).take n).map .ok ++
          List.replicate (n - (a.freePorts r).length) (.error (.noPorts r.min r.max)),
        { a with used := insertAll ((a.freePorts r).take n) a.used }) := by
  induction n generalizing a with
  | zero =>
    rw [List.take_zero, Nat.zero_sub]
    rfl
  | succ n ih =>
    rw [allocateTimes]
    cases hfree : a.freePorts r with
    | nil =>
      rw [allocate_of_nil hfree]
      dsimp only
      rw [ih, hfree, List.take_nil, List.take_nil]
      rfl
    | cons p ps =>
      rw [allocate_of_cons hfree]
      dsimp only
      rw [ih, freePorts_of_cons hfree, List.length_cons, Nat.succ_sub_succ, List.take_succ_cons]
      rfl

theorem freePorts_allocateTimes (r : PortRange) (n : Nat) (a : PortAllocator) :
    (allocateTimes r n a).2.freePorts r = (a.freePorts r).drop n := by
  induction n generalizing a with
  | zero => rfl
  | succ n ih =>
    rw [allocateTimes]
    cases hfree : a.freePorts r with
    | nil =>
      rw [allocate_of_nil hfree]
      dsimp only
      rw [ih, hfree, List.drop_nil, List.drop_nil]
    | cons p ps =>
      rw [allocate_of_cons hfree]
      dsimp only
      rw [ih, freePorts_of_cons hfree, List.drop_succ_cons]

theorem ok_mem_allocateTimes {n : Nat} :
    .ok p ∈ (allocateTimes r n a).1 ↔ p ∈ (a.freePorts r).take n := by
  rw [allocateTimes_eq, List.mem_append, List.mem_map, List.mem_replicate]
  constructor
  · rintro (⟨q, hq, ⟨⟩⟩ | ⟨-, ⟨⟩⟩)
    exact hq
  · exact fun hp ↦ Or.inl ⟨p, hp, rfl⟩

/-! ## Giving ports back -/

theorem filter_insertAll (hps : ps ⊆ back) (used : List UInt16) :
    (insertAll ps used).filter (· ∉ back) = used.filter (· ∉ back) := by
  induction ps generalizing used with
  | nil => rfl
  | cons p ps ih =>
    rw [List.cons_subset] at hps
    refine (ih hps.2 (insert p used)).trans (filter_insert_of_neg ?_ used)
    exact decide_eq_false (not_not.mpr hps.1)

/-- Ports that were free can be given back in any way. -/
theorem releaseAll_insertAll (hps : ps ⊆ back) (hfree : ∀ p ∈ back, p ∉ a.used) :
    back.foldl release { a with used := insertAll ps a.used } = a := by
  have hused : (back.foldl release { a with used := insertAll ps a.used }).used = a.used := by
    rw [used_releaseAll, filter_insertAll hps]
    exact List.filter_eq_self.mpr fun p hp ↦ decide_eq_true fun hback ↦ hfree p hback hp
  exact congrArg PortAllocator.mk hused

/-! ## The whole run -/

/-- **A range gives its free ports and no more.** Successive calls return the free ports of the
range in increasing order, as many as there are calls for, and fail from then on. What they return
is in use after them besides what was before, and a call that fails leaves the allocator as it is.
Giving the returned ports back, in any order and as often as one likes, makes it the one it was. -/
theorem allocations_exhaust_range (a : PortAllocator) (r : PortRange) (n : Nat) :
    ((a.freePorts r).Pairwise (· < ·) ∧
        ∀ p, p ∈ a.freePorts r ↔ r.min ≤ p ∧ p ≤ r.max ∧ p ≠ 0 ∧ p ∉ a.used) ∧
      (allocateTimes r n a).1 = ((a.freePorts r).take n).map .ok ++
          List.replicate (n - (a.freePorts r).length) (.error (.noPorts r.min r.max)) ∧
      (∀ q, q ∈ (allocateTimes r n a).2.used ↔ q ∈ a.used ∨ .ok q ∈ (allocateTimes r n a).1) ∧
      ((a.freePorts r).length ≤ n → (allocateTimes r n a).2.allocate r =
          (.error (.noPorts r.min r.max), (allocateTimes r n a).2)) ∧
      ∀ back : List UInt16, (∀ p, p ∈ back ↔ .ok p ∈ (allocateTimes r n a).1) →
        back.foldl release (allocateTimes r n a).2 = a := by
  refine ⟨⟨a.pairwise_freePorts r, fun p ↦ mem_freePorts_iff⟩, ?_, fun q ↦ ?_, fun hn ↦ ?_,
    fun back hback ↦ ?_⟩
  · rw [allocateTimes_eq]
  · rw [ok_mem_allocateTimes, allocateTimes_eq, mem_insertAll]
    exact or_comm
  · apply allocate_of_nil
    rw [freePorts_allocateTimes, List.drop_eq_nil_of_le hn]
  · have hfree (p : UInt16) : p ∈ back ↔ p ∈ (a.freePorts r).take n :=
      (hback p).trans ok_mem_allocateTimes
    rw [allocateTimes_eq]
    refine releaseAll_insertAll (fun p hp ↦ (hfree p).mpr hp) fun p hp ↦ ?_
    exact (mem_freePorts_iff.mp (List.mem_of_mem_take ((hfree p).mp hp))).2.2.2

/-- Five calls for the two ports that are free from 0 to 4. -/
theorem small_range_exhausted :
    let a : PortAllocator := ⟨[1, 4]⟩
    let r : PortRange := ⟨0, 4⟩
    (a.freePorts r).length ≤ 5 ∧
      (allocateTimes r 5 a).1 =
        [.ok 2, .ok 3, .error (.noPorts 0 4), .error (.noPorts 0 4), .error (.noPorts 0 4)] ∧
      (allocateTimes r 5 a).2.allocate r = (.error (.noPorts 0 4), (allocateTimes r 5 a).2) ∧
      (∀ p, p ∈ [3, 2, 3] ↔ .ok p ∈ (allocateTimes r 5 a).1) ∧
      [3, 2, 3].foldl release (allocateTimes r 5 a).2 = a := by
  intro a r
  have hfew : (a.freePorts r).length ≤ 5 := by decide
  obtain ⟨-, -, -, hfail, hback⟩ := allocations_exhaust_range a r 5
  have hresults : (allocateTimes r 5 a).1 = [.ok 2, .ok 3, .error (.noPorts 0 4),
      .error (.noPorts 0 4), .error (.noPorts 0 4)] := by decide
  have hreturned (p : UInt16) : p ∈ [3, 2, 3] ↔ .ok p ∈ (allocateTimes r 5 a).1 := by
    rw [hresults]
    grind
  exact ⟨hfew, hresults, hfail hfew, hreturned, hback _ hreturned⟩

/-- The highest port of all is the last of its range, and an empty range has none. -/
example : (allocateTimes ⟨65534, 65535⟩ 3 {}).1 =
      [.ok 65534, .ok 65535, .error (.noPorts 65534 65535)] ∧
    (allocateTimes ⟨2, 1⟩ 1 {}).1 = [.error (.noPorts 2 1)] := by decide

end OfferAnswer.PortAllocator
