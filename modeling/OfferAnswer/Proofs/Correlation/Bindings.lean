import OfferAnswer.Correlation.Table
import OfferAnswer.Proofs.Lookup

/-!
# First seen wins

A table finds the binding of a remote source in a list, and takes a binding only if it finds none.
So binding is appending, as far as lookups go: `binding?_bindAll` says that a lookup after bindings
came in is a lookup in the old list and then in what came in. All that the packets of a buffer teach
comes in that way (`resolve_fst`).

Binding touches neither queues nor announcements (`SameQueues`), and leaves at most one binding to
each remote source (`Keyed`).
-/

namespace OfferAnswer

namespace CorrelationTable

variable {t u v : CorrelationTable}

/-! ## What binding leaves alone -/

/-- Two tables that differ in their bindings at most. -/
structure SameQueues (t u : CorrelationTable) : Prop where
  /-- The channels are the same. -/
  channels : u.channels = t.channels
  /-- The passthrough queue is the same. -/
  passthrough : u.passthrough = t.passthrough
  /-- Both are open, or both are closed. -/
  closed : u.closed = t.closed
  /-- The same channels were announced. -/
  announced : u.announced = t.announced

namespace SameQueues

theorem refl (t : CorrelationTable) : SameQueues t t := ⟨rfl, rfl, rfl, rfl⟩

theorem trans (h : SameQueues t u) (h' : SameQueues u v) : SameQueues t v :=
  ⟨h'.channels.trans h.channels, h'.passthrough.trans h.passthrough, h'.closed.trans h.closed,
    h'.announced.trans h.announced⟩

end SameQueues

theorem sameQueues_bind (t : CorrelationTable) (b : SsrcBinding) : SameQueues t (t.bind b) := by
  rw [bind]
  by_cases hfree : t.canBind b.remote = true
  · rw [if_pos hfree]
    exact ⟨rfl, rfl, rfl, rfl⟩
  · rw [if_neg hfree]
    exact SameQueues.refl t

theorem sameQueues_bindAll (t : CorrelationTable) (bs : List SsrcBinding) :
    SameQueues t (t.bindAll bs) := by
  induction bs generalizing t with
  | nil => exact SameQueues.refl t
  | cons b bs ih => exact (sameQueues_bind t b).trans (ih (t.bind b))

/-! ## Lookups -/

/-- The first binding of a remote source in a list. -/
def firstOf (bs : List SsrcBinding) (remote : Ssrc) : Option SsrcBinding :=
  bs.find? (·.remote == remote)

theorem firstOf_append (bs cs : List SsrcBinding) (r : Ssrc) :
    firstOf (bs ++ cs) r = (firstOf bs r).or (firstOf cs r) := List.find?_append

theorem binding?_eq_firstOf (t : CorrelationTable) (r : Ssrc) :
    t.binding? r = firstOf t.bindings r := rfl

/-- A binding is found by those who look for its remote source and found nothing before. -/
theorem binding?_bind (hopen : t.closed = false) (b : SsrcBinding) (r : Ssrc) :
    (t.bind b).binding? r = (t.binding? r).or (firstOf [b] r) := by
  rw [bind, canBind, hopen]
  by_cases hfree : t.binding? b.remote = none
  · rw [hfree]
    exact firstOf_append t.bindings [b] r
  · obtain ⟨c, hc⟩ := Option.ne_none_iff_exists'.mp hfree
    rw [hc]
    change t.binding? r = _
    by_cases hr : b.remote = r
    · rw [← hr, hc, Option.some_or]
    · have hother : firstOf [b] r = none := by simp [firstOf, hr]
      rw [hother, Option.or_none]

/-- Lookups see the bindings that came in behind those that were there. -/
theorem binding?_bindAll (hopen : t.closed = false) (bs : List SsrcBinding) (r : Ssrc) :
    (t.bindAll bs).binding? r = (t.binding? r).or (firstOf bs r) := by
  induction bs generalizing t with
  | nil => exact (Option.or_none).symm
  | cons b bs ih =>
    have hopen' : (t.bind b).closed = false := (sameQueues_bind t b).closed.trans hopen
    rw [bindAll, List.foldl_cons, ← bindAll, ih hopen', binding?_bind hopen, Option.or_assoc,
      ← firstOf_append, List.singleton_append]

/-! ## What stays -/

theorem bindings_prefix_bind (t : CorrelationTable) (b : SsrcBinding) :
    t.bindings <+: (t.bind b).bindings := by
  rw [bind]
  split
  · exact List.prefix_append t.bindings [b]
  · exact List.prefix_rfl

theorem bindings_prefix_bindAll (t : CorrelationTable) (bs : List SsrcBinding) :
    t.bindings <+: (t.bindAll bs).bindings := by
  induction bs generalizing t with
  | nil => exact List.prefix_rfl
  | cons b bs ih => exact (bindings_prefix_bind t b).trans (ih (t.bind b))

/-- Nothing comes in that was not asked for. -/
theorem mem_of_mem_bindAll {b : SsrcBinding} {bs : List SsrcBinding}
    (h : b ∈ (t.bindAll bs).bindings) : b ∈ t.bindings ∨ b ∈ bs := by
  induction bs generalizing t with
  | nil => exact .inl h
  | cons c bs ih =>
    rcases ih h with hmem | hmem
    · rw [bind] at hmem
      split at hmem
      · rcases List.mem_append.mp hmem with hmem | hmem
        · exact .inl hmem
        · exact .inr (List.mem_cons.mpr (.inl (List.mem_singleton.mp hmem)))
      · exact .inl hmem
    · exact .inr (List.mem_cons_of_mem c hmem)

/-! ## What packets teach -/

theorem learn_eq (t : CorrelationTable) (p : RtcpPacket) :
    t.learn p = t.bindAll (lesson? p).toList := by
  rw [learn]
  cases lesson? p <;> rfl

theorem bindAll_append (t : CorrelationTable) (bs cs : List SsrcBinding) :
    t.bindAll (bs ++ cs) = (t.bindAll bs).bindAll cs := List.foldl_append

/-- A buffer teaches the lessons of its packets. -/
theorem resolve_fst (t : CorrelationTable) (seen : List Ssrc) (ps : List RtcpPacket) :
    (t.resolve seen ps).1 = t.bindAll (ps.filterMap lesson?) := by
  induction ps generalizing t seen with
  | nil => rfl
  | cons p ps ih =>
    have hlessons : (p :: ps).filterMap lesson? = (lesson? p).toList ++ ps.filterMap lesson? := by
      rw [List.filterMap_cons]
      cases lesson? p <;> rfl
    rw [resolve, ih, hlessons, bindAll_append, learn_eq]

/-! ## Keys -/

/-- No remote source has two bindings. -/
def Keyed (t : CorrelationTable) : Prop := (t.bindings.map (·.remote)).Nodup

/-- A table with keys finds every binding under its own remote source. -/
theorem Keyed.binding?_eq_some_iff (h : t.Keyed) {r : Ssrc} {b : SsrcBinding} :
    t.binding? r = some b ↔ b ∈ t.bindings ∧ b.remote = r := find?_key_eq_some_iff h

theorem Keyed.bind (h : t.Keyed) (b : SsrcBinding) : (t.bind b).Keyed := by
  rw [CorrelationTable.bind]
  by_cases hfree : t.canBind b.remote = true
  · have hnone : t.binding? b.remote = none := by simpa using (Bool.and_eq_true_iff.mp hfree).2
    have hnotMem : b.remote ∉ t.bindings.map (·.remote) := by
      simpa using List.find?_eq_none.mp hnone
    rw [if_pos hfree, Keyed, List.map_append]
    exact List.nodup_append.mpr ⟨h, List.nodup_singleton _, by simpa using hnotMem⟩
  · rwa [if_neg hfree]

theorem Keyed.bindAll (h : t.Keyed) (bs : List SsrcBinding) : (t.bindAll bs).Keyed := by
  induction bs generalizing t with
  | nil => exact h
  | cons b bs ih => exact ih (h.bind b)

theorem Keyed.filter (h : t.Keyed) {p : SsrcBinding → Bool}
    (hu : u.bindings = t.bindings.filter p) : u.Keyed := by
  rw [Keyed, hu]
  exact h.sublist (List.filter_sublist.map _)

/-! ## Taking bindings in -/

/-- One table has the bindings of another after a list of them came in. -/
structure Binds (t u : CorrelationTable) (bs : List SsrcBinding) : Prop where
  /-- The bindings are those of the other table, and what it takes of the list. -/
  bindings : u.bindings = (t.bindAll bs).bindings
  /-- Both are open, or both are closed. -/
  closed : u.closed = t.closed

/-- What a table takes depends on its bindings and on whether it is open. -/
theorem Binds.bindAll (h : t.bindings = u.bindings) (h' : t.closed = u.closed)
    (bs : List SsrcBinding) : Binds u (t.bindAll bs) bs := by
  induction bs generalizing t u with
  | nil => exact ⟨h, h'⟩
  | cons b bs ih =>
    have hfree : t.canBind b.remote = u.canBind b.remote := by
      rw [canBind, canBind, binding?_eq_firstOf, binding?_eq_firstOf, h, h']
    have hbindings : (t.bind b).bindings = (u.bind b).bindings := by
      rw [bind, bind, hfree]
      split
      · simp only [h]
      · exact h
    have hclosed : (t.bind b).closed = (u.bind b).closed := by
      rw [(sameQueues_bind t b).closed, (sameQueues_bind u b).closed, h']
    have hrest := ih hbindings hclosed
    exact ⟨hrest.bindings, hrest.closed.trans (sameQueues_bind u b).closed⟩

namespace Binds

variable {bs cs : List SsrcBinding}

theorem nil (h : u.bindings = t.bindings) (h' : u.closed = t.closed) : Binds t u [] := ⟨h, h'⟩

theorem trans (h : Binds t u bs) (h' : Binds u v cs) : Binds t v (bs ++ cs) where
  bindings := by
    have hmiddle := Binds.bindAll h.bindings
      (h.closed.trans (sameQueues_bindAll t bs).closed.symm) cs
    rw [h'.bindings, hmiddle.bindings, bindAll_append]
  closed := h'.closed.trans h.closed

theorem subset (h : Binds t u bs) : t.bindings ⊆ u.bindings := by
  rw [h.bindings]
  exact (bindings_prefix_bindAll t bs).subset

theorem keyed (h : Binds t u bs) (ht : t.Keyed) : u.Keyed := by
  rw [Keyed, h.bindings]
  exact ht.bindAll bs

theorem mem (h : Binds t u bs) {b : SsrcBinding} (hb : b ∈ u.bindings) :
    b ∈ t.bindings ∨ b ∈ bs := by
  rw [h.bindings] at hb
  exact mem_of_mem_bindAll hb

end Binds

end CorrelationTable

end OfferAnswer
