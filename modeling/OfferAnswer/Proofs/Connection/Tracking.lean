import OfferAnswer.Connection.Machine

/-!
# Which endpoints a connection follows

The machine folds the states of its components into one, and the fold never closes a connection:
only `close` does. So a machine that is not closed stays that way under every other operation, and
an endpoint that is added to it is followed.
-/

namespace OfferAnswer.ConnectionMachine

variable {m : ConnectionMachine} {id : EndpointId}

/-! ## The fold -/

theorem aggregate_ne_closed (m : ConnectionMachine) : m.aggregate ≠ .closed := by
  rw [aggregate]
  cases m.components.map (·.state) with
  | nil => exact ConnectionState.noConfusion
  | cons s ss =>
    dsimp only
    cases worst s ss with
    | completed =>
      dsimp only
      split
      · exact ConnectionState.noConfusion
      · exact ConnectionState.noConfusion
    | _ => exact ConnectionState.noConfusion

@[simp] theorem components_moveTo (m : ConnectionMachine) (s : ConnectionState) :
    (m.moveTo s).components = m.components := by
  rw [moveTo]
  split <;> rfl

@[simp] theorem state_moveTo (m : ConnectionMachine) (s : ConnectionState) :
    (m.moveTo s).state = s := by
  rw [moveTo]
  split
  · assumption
  · rfl

@[simp] theorem components_evaluate (m : ConnectionMachine) :
    m.evaluate.components = m.components := by
  rw [evaluate]
  split
  · rfl
  · exact components_moveTo m _

/-- Folding never closes a connection, and never reopens one. -/
@[simp] theorem state_evaluate_eq_closed : m.evaluate.state = .closed ↔ m.state = .closed := by
  rw [evaluate]
  split
  · rfl
  · rename_i h
    rw [state_moveTo]
    exact ⟨fun hc ↦ absurd hc m.aggregate_ne_closed, fun hc ↦ absurd hc h⟩

/-! ## Following -/

theorem hasEndpoint_iff : m.hasEndpoint id = true ↔ ∃ t ∈ m.components, t.endpoint = id := by
  simp only [hasEndpoint, List.any_eq_true, beq_iff_eq]

theorem hasEndpoint_of_tracks {c : IceComponent} (h : m.tracks id c = true) :
    m.hasEndpoint id = true := by
  obtain ⟨t, ht, hboth⟩ := List.any_eq_true.mp h
  rw [Bool.and_eq_true, beq_iff_eq] at hboth
  exact hasEndpoint_iff.mpr ⟨t, ht, hboth.1⟩

@[simp] theorem state_track (m : ConnectionMachine) (id : EndpointId) (c : IceComponent) :
    (m.track id c).state = m.state := by
  rw [track]
  split <;> rfl

theorem hasEndpoint_track (m : ConnectionMachine) (id : EndpointId) (c : IceComponent) :
    (m.track id c).hasEndpoint id = true := by
  rw [track]
  split
  · rename_i h
    exact hasEndpoint_of_tracks h
  · exact hasEndpoint_iff.mpr ⟨_, List.mem_append_right _ (List.mem_singleton_self _), rfl⟩

theorem hasEndpoint_track_of {i : EndpointId} (h : m.hasEndpoint id = true) (c : IceComponent) :
    (m.track i c).hasEndpoint id = true := by
  rw [track]
  split
  · exact h
  · obtain ⟨t, ht, hid⟩ := hasEndpoint_iff.mp h
    exact hasEndpoint_iff.mpr ⟨t, List.mem_append_left _ ht, hid⟩

theorem state_foldl_track (m : ConnectionMachine) (id : EndpointId) (cs : List IceComponent) :
    (cs.foldl (fun m c ↦ m.track id c) m).state = m.state := by
  induction cs generalizing m with
  | nil => rfl
  | cons c cs ih => exact (ih (m.track id c)).trans (state_track m id c)

theorem hasEndpoint_foldl_track {i : EndpointId} (h : m.hasEndpoint id = true)
    (cs : List IceComponent) :
    (cs.foldl (fun m c ↦ m.track i c) m).hasEndpoint id = true := by
  induction cs generalizing m with
  | nil => exact h
  | cons c cs ih => exact ih (hasEndpoint_track_of h c)

theorem hasEndpoint_evaluate : m.evaluate.hasEndpoint id = m.hasEndpoint id := by
  rw [hasEndpoint, hasEndpoint, components_evaluate]

/-! ## Operations -/

theorem state_addEndpoint_eq_closed (m : ConnectionMachine) (id : EndpointId)
    (cs : List IceComponent) : (m.addEndpoint id cs).state = .closed ↔ m.state = .closed := by
  rw [addEndpoint]
  split
  · rfl
  · rw [state_evaluate_eq_closed, state_foldl_track]

theorem hasEndpoint_addEndpoint_of {i : EndpointId} (h : m.hasEndpoint id = true)
    (cs : List IceComponent) : (m.addEndpoint i cs).hasEndpoint id = true := by
  rw [addEndpoint]
  split
  · exact h
  · rw [hasEndpoint_evaluate]
    exact hasEndpoint_foldl_track h cs

theorem hasEndpoint_addEndpoint (hm : m.state ≠ .closed) (id : EndpointId) (mux : Bool) :
    (m.addEndpoint id (IceComponent.ofMux mux)).hasEndpoint id = true := by
  have hcons : ∃ c cs, IceComponent.ofMux mux = c :: cs := by
    rw [IceComponent.ofMux]
    split
    · exact ⟨_, _, rfl⟩
    · exact ⟨_, _, rfl⟩
  obtain ⟨c, cs, hcs⟩ := hcons
  rw [addEndpoint, if_neg hm, hasEndpoint_evaluate, hcs]
  exact hasEndpoint_foldl_track (hasEndpoint_track m id c) cs

theorem state_removeEndpoint_eq_closed (m : ConnectionMachine) (id : EndpointId) :
    (m.removeEndpoint id).state = .closed ↔ m.state = .closed := by
  rw [removeEndpoint, state_evaluate_eq_closed]

theorem state_foldl_removeEndpoint (m : ConnectionMachine) (ids : List EndpointId) :
    (ids.foldl removeEndpoint m).state = .closed ↔ m.state = .closed := by
  induction ids generalizing m with
  | nil => rfl
  | cons id ids ih => exact (ih (m.removeEndpoint id)).trans (state_removeEndpoint_eq_closed m id)

theorem state_restart_eq_closed (m : ConnectionMachine) :
    m.restart.state = .closed ↔ m.state = .closed := by
  rw [restart]
  split
  · rfl
  · rw [state_evaluate_eq_closed]

theorem state_handleIce_eq_closed (m : ConnectionMachine) (id : EndpointId) (c : IceComponent)
    (s : IceState) (generation : Nat) :
    (m.handleIce id c s generation).2.state = .closed ↔ m.state = .closed := by
  rw [handleIce]
  split
  · rw [state_evaluate_eq_closed]
  · rfl

theorem state_handleDtls_eq_closed (m : ConnectionMachine) (id : EndpointId) (generation : Nat) :
    (m.handleDtls id generation).2.state = .closed ↔ m.state = .closed := by
  rw [handleDtls]
  split
  · rw [state_evaluate_eq_closed]
  · rfl

/-! ## Restarts -/

theorem worst_of_forall {s : IceState} {ss : List IceState} (h : ∀ t ∈ ss, t = s) :
    worst s ss = s := by
  induction ss with
  | nil => rfl
  | cons t ss ih =>
    obtain rfl : t = s := h t List.mem_cons_self
    have hrest := ih fun u hu ↦ h u (List.mem_cons_of_mem t hu)
    simpa [worst] using hrest

/-- After a restart every component checks again, so nothing is connected. -/
theorem isConnected_restart (hm : m.state ≠ .closed) : m.restart.state.isConnected = false := by
  rw [restart, if_neg hm, evaluate, if_neg hm, state_moveTo, aggregate]
  cases m.components with
  | nil => rfl
  | cons t ts =>
    have hworst : worst .checking (ts.map fun _ ↦ IceState.checking) = .checking :=
      worst_of_forall fun u hu ↦ (List.mem_map.mp hu).choose_spec.2.symm
    simp only [List.map_cons, List.map_map, Function.comp_def]
    rw [hworst]
    rfl

end OfferAnswer.ConnectionMachine
