import OfferAnswer.Proofs.Connection.History

/-!
# One state for a connection

The state of a machine is stored, not computed when it is asked for, so it is right only if every
call folds anew. It is: in every history without a close, the state is the `verdict` on what the
history says of its components and endpoints (`state_run`), and the order in which it was said does
not matter.

The fold takes the worst component by rank. `verdict` asks for the kinds of states one by one, the
most urgent first; the two agree because ranks follow that order.
-/

namespace OfferAnswer.ConnectionMachine

variable {told told' : EndpointId → IceComponent → IceState → Prop}
  {secured secured' : EndpointId → Prop}

open Classical in
/-- The state of a connection, by the states of its components and by its secured endpoints. -/
noncomputable def verdict (told : EndpointId → IceComponent → IceState → Prop)
    (secured : EndpointId → Prop) : ConnectionState :=
  if ∃ e c, told e c .failed then .failed
  else if (∀ e c s, ¬told e c s) ∨ ∃ e c, told e c .new then .new
  else if ∃ e c, told e c .checking then .checking
  else if ∃ e c, told e c .disconnected then .disconnected
  else if (∀ e c s, told e c s → s = .completed) ∧ ∀ e, (∃ c s, told e c s) → secured e then
    .completed
  else .connected

/-- Only the handshakes of endpoints that have a component count. -/
theorem verdict_congr (htold : ∀ e c s, told e c s ↔ told' e c s)
    (hsecured : ∀ e, (∃ c s, told e c s) → (secured e ↔ secured' e)) :
    verdict told secured = verdict told' secured' := by
  obtain rfl : told = told' := funext fun e ↦ funext fun c ↦ funext fun s ↦ propext (htold e c s)
  have hall : (∀ e, (∃ c s, told e c s) → secured e) ↔ ∀ e, (∃ c s, told e c s) → secured' e :=
    forall_congr' fun e ↦ forall_congr' (hsecured e)
  rw [verdict, verdict, propext hall]

/-! ## The worst state -/

theorem worst_cons (s t : IceState) (ss : List IceState) :
    worst s (t :: ss) = worst (if t.rank < s.rank then t else s) ss := rfl

theorem worst_mem (s : IceState) (ss : List IceState) : worst s ss ∈ s :: ss := by
  induction ss generalizing s with
  | nil => exact List.mem_singleton_self s
  | cons t ss ih =>
    rw [worst_cons]
    split
    · exact List.mem_cons_of_mem s (ih t)
    · exact List.cons_subset_cons s (List.subset_cons_self t ss) (ih s)

theorem rank_worst_le {s t : IceState} {ss : List IceState} (ht : t ∈ s :: ss) :
    (worst s ss).rank ≤ t.rank := by
  induction ss generalizing s t with
  | nil => exact Nat.le_of_eq (congrArg _ (List.mem_singleton.mp ht).symm)
  | cons u ss ih =>
    rw [worst_cons]
    split
    · rename_i hlt
      rcases List.mem_cons.mp ht with rfl | ht
      · exact Nat.le_trans (ih List.mem_cons_self) (Nat.le_of_lt hlt)
      · exact ih ht
    · rename_i hle
      rcases List.mem_cons.mp ht with rfl | ht
      · exact ih List.mem_cons_self
      rcases List.mem_cons.mp ht with rfl | ht
      · exact Nat.le_trans (ih List.mem_cons_self) (Nat.le_of_not_lt hle)
      · exact ih (List.mem_cons_of_mem s ht)

/-- What ranks before the worst state does not occur. -/
theorem not_mem_of_rank_lt_worst {s t : IceState} {ss : List IceState}
    (ht : t.rank < (worst s ss).rank) : t ∉ s :: ss :=
  fun h ↦ Nat.not_lt.mpr (rank_worst_le h) ht

theorem rank_lt_completed {s : IceState} (h : s ≠ .completed) :
    s.rank < IceState.completed.rank := by
  cases s <;> first | decide | exact absurd rfl h

/-! ## What a machine knows -/

theorem exists_mem_components_iff (m : ConnectionMachine) (s : IceState) :
    (∃ e c, (⟨e, c, s⟩ : TrackedComponent) ∈ m.components) ↔ s ∈ m.components.map (·.state) := by
  rw [List.mem_map]
  constructor
  · rintro ⟨e, c, ht⟩
    exact ⟨_, ht, rfl⟩
  · rintro ⟨⟨e, c, _⟩, ht, rfl⟩
    exact ⟨e, c, ht⟩

theorem forall_mem_components_iff (m : ConnectionMachine) (p : IceState → Prop) :
    (∀ e c s, (⟨e, c, s⟩ : TrackedComponent) ∈ m.components → p s) ↔
      ∀ s ∈ m.components.map (·.state), p s := by
  simp only [← exists_mem_components_iff]
  constructor
  · rintro h s ⟨e, c, ht⟩
    exact h e c s ht
  · exact fun h e c s ht ↦ h s ⟨e, c, ht⟩

theorem forall_endpoint_secured_iff (m : ConnectionMachine) :
    (∀ e, (∃ c s, (⟨e, c, s⟩ : TrackedComponent) ∈ m.components) → e ∈ m.secured) ↔
      (m.components.all fun t ↦ m.secured.contains t.endpoint) = true := by
  rw [List.all_eq_true]
  constructor
  · exact fun h t ht ↦ List.contains_iff_mem.mpr (h t.endpoint ⟨t.component, t.state, ht⟩)
  · rintro h e ⟨c, s, ht⟩
    exact List.contains_iff_mem.mp (h _ ht)

/-- The fold of a machine is the verdict on what the machine knows. -/
theorem aggregate_eq_verdict (m : ConnectionMachine) : m.aggregate =
    verdict (fun e c s ↦ (⟨e, c, s⟩ : TrackedComponent) ∈ m.components) (· ∈ m.secured) := by
  have hnone : (∀ e c s, (⟨e, c, s⟩ : TrackedComponent) ∉ m.components) ↔
      m.components.map (·.state) = [] := by
    rw [List.eq_nil_iff_forall_not_mem]
    exact forall_mem_components_iff m fun _ ↦ False
  rw [aggregate, verdict]
  simp only [exists_mem_components_iff, hnone, forall_mem_components_iff m (· = .completed),
    forall_endpoint_secured_iff]
  cases m.components.map (·.state) with
  | nil => simp
  | cons s ss =>
    have hmem := worst_mem s ss
    have hleast (t : IceState) (ht : t.rank < (worst s ss).rank) : t ∉ s :: ss :=
      not_mem_of_rank_lt_worst ht
    dsimp only
    generalize worst s ss = w at hmem hleast
    -- The verdict asks for the states in the order of rank, so the first that it finds is `w`.
    have hnew (hlt : IceState.new.rank < w.rank) : ¬(s :: ss = [] ∨ .new ∈ s :: ss) :=
      fun h ↦ h.elim (List.cons_ne_nil s ss) (hleast _ hlt)
    cases w <;> dsimp only
    case failed => rw [if_pos hmem]
    case new => rw [if_neg (hleast _ (by decide)), if_pos (Or.inr hmem)]
    case checking =>
      rw [if_neg (hleast _ (by decide)), if_neg (hnew (by decide)), if_pos hmem]
    case disconnected =>
      rw [if_neg (hleast _ (by decide)), if_neg (hnew (by decide)),
        if_neg (hleast _ (by decide)), if_pos hmem]
    case connected =>
      rw [if_neg (hleast _ (by decide)), if_neg (hnew (by decide)),
        if_neg (hleast _ (by decide)), if_neg (hleast _ (by decide)),
        if_neg (not_and_of_not_left _ fun h ↦ IceState.noConfusion (h _ hmem))]
    case completed =>
      have hdone : ∀ t ∈ s :: ss, t = .completed := fun t ht ↦
        by_contra fun hne ↦ hleast t (rank_lt_completed hne) ht
      rw [if_neg (hleast _ (by decide)), if_neg (hnew (by decide)),
        if_neg (hleast _ (by decide)), if_neg (hleast _ (by decide))]
      simp only [eq_true hdone, true_and]

/-! ## After a history -/

/-- **One state from all that happened.** In every history without a close:
the state is the verdict on the states of the components that are followed and on the endpoints
that are secured;
each of these components stands in one state, which the machine has for it;
and the events that count are those that the machine answers so.
Two such histories that agree on the components and, where it matters, on the handshakes end in
the same state, in whatever order it all happened. -/
theorem state_run :
    (∀ h, .close ∉ h →
      (run h).state = verdict (Stands h) (Secured h) ∧
      (∀ e c, (run h).tracks e c = true ↔ Follows h e c) ∧
      (∀ e c, Follows h e c → ∃! s, Stands h e c s) ∧
      (∀ e c s, (⟨e, c, s⟩ : TrackedComponent) ∈ (run h).components ↔ Stands h e c s) ∧
      (∀ e c s g, ((run h).handleIce e c s g).1 = true ↔
        Follows h e c ∧ g = h.count .restart) ∧
      ∀ e g, ((run h).handleDtls e g).1 = true ↔
        (∃ c, Follows h e c) ∧ g = h.count .restart) ∧
    ∀ h h', .close ∉ h → .close ∉ h' → (∀ e c s, Stands h e c s ↔ Stands h' e c s) →
      (∀ e, (∃ c, Follows h e c) → (Secured h e ↔ Secured h' e)) →
      (run h).state = (run h').state := by
  have hverdict (h : List Call) (hopen : .close ∉ h) :
      (run h).state = verdict (Stands h) (Secured h) := by
    have hr := recalls_run hopen
    rw [hr.state, aggregate_eq_verdict]
    exact verdict_congr hr.components fun e _ ↦ hr.secured e
  refine ⟨fun h hopen ↦ ?_, fun h h' hopen hopen' hstands hsecured ↦ ?_⟩
  · have hr := recalls_run hopen
    refine ⟨hverdict h hopen, hr.tracks, fun e c hfollows ↦ ?_, hr.components, hr.counted_ice,
      hr.counted_dtls⟩
    obtain ⟨s, hs⟩ := tracks_iff.mp ((hr.tracks e c).mpr hfollows)
    have hstands := (hr.components e c s).mp hs
    exact ⟨s, hstands, fun s' hs' ↦ hs'.2.unique hstands.2⟩
  · rw [hverdict h hopen, hverdict h' hopen']
    refine verdict_congr hstands fun e he ↦ hsecured e ?_
    obtain ⟨c, _, hfollows, _⟩ := he
    exact ⟨c, hfollows⟩

/-- Two endpoints, one of which is removed and comes back, and a restart. -/
def detour : List Call :=
  [.add 1 [.rtp], .add 2 [.rtp, .rtcp], .dtls 2 0, .ice 1 .rtp .failed 0, .remove 1, .restart,
    .ice 2 .rtp .completed 0, .ice 2 .rtp .completed 1, .ice 2 .rtcp .completed 1, .add 1 [.rtp],
    .dtls 1 1, .ice 1 .rtp .completed 1]

/-- The same two endpoints, without a detour. -/
def direct : List Call :=
  [.add 2 [.rtp, .rtcp], .ice 2 .rtcp .completed 0, .add 1 [.rtp], .ice 2 .rtp .completed 0,
    .ice 1 .rtp .completed 0, .dtls 1 0, .dtls 2 0]

theorem state_run_detour_direct :
    .close ∉ detour ∧ .close ∉ direct ∧
    (∀ e c s, Stands detour e c s ↔ Stands direct e c s) ∧
    (∀ e, (∃ c, Follows detour e c) → (Secured detour e ↔ Secured direct e)) ∧
    (run detour).state = (run direct).state ∧
    verdict (Stands direct) (Secured direct) = .completed := by
  have hopen : .close ∉ detour := by decide
  have hopen' : .close ∉ direct := by decide
  have hr := recalls_run hopen
  have hr' := recalls_run hopen'
  have hstands (e : EndpointId) (c : IceComponent) (s : IceState) :
      Stands detour e c s ↔ Stands direct e c s := by
    have hperm : (run detour).components.Perm (run direct).components := by decide
    rw [← hr.components, ← hr'.components]
    exact hperm.mem_iff
  have hsecured (e : EndpointId) : Secured detour e ↔ Secured direct e := by
    have hperm : (run detour).secured.Perm (run direct).secured := by decide
    rw [← hr.secured, ← hr'.secured]
    exact hperm.mem_iff
  obtain ⟨hstate, hsame⟩ := state_run
  refine ⟨hopen, hopen', hstands, fun e _ ↦ hsecured e,
    hsame detour direct hopen hopen' hstands fun e _ ↦ hsecured e, ?_⟩
  rw [← (hstate direct hopen').1]
  decide

end OfferAnswer.ConnectionMachine
