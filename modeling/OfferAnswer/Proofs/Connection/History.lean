import OfferAnswer.Proofs.Connection.Tracking
import OfferAnswer.Proofs.Since

/-!
# Histories of a connection

A machine is driven by `Call`s, and `run` is the machine after a history of them, oldest first.
What is known of a component or of an endpoint is read off the history alone: some call did it,
and no later call undid it (`Since`). A component is followed since it was added, its state is what
was last said of it, and an endpoint is secured since its handshake counted.

`Recalls` says that a machine that was never closed knows just that. It is kept by every call
(`Recalls.call`), whatever the order of the calls.
-/

namespace OfferAnswer

namespace ConnectionMachine

/-! ## Calls -/

/-- What can be asked of a machine. -/
inductive Call where
  /-- Follow components of an endpoint. -/
  | add (e : EndpointId) (cs : List IceComponent)
  /-- Follow an endpoint no longer. -/
  | remove (e : EndpointId)
  /-- A component changed its state. -/
  | ice (e : EndpointId) (c : IceComponent) (s : IceState) (generation : Nat)
  /-- The handshake of an endpoint completed. -/
  | dtls (e : EndpointId) (generation : Nat)
  | restart
  | close
deriving DecidableEq

/-- What a machine answers. -/
inductive Reply where
  /-- Nothing but that it was done. -/
  | done
  /-- Whether the event counted. -/
  | counted (b : Bool)
  /-- The generation from now on. -/
  | generation (n : Nat)
deriving DecidableEq

/-- The answer to a call, and the machine after it. -/
def call (m : ConnectionMachine) : Call → Reply × ConnectionMachine
  | .add e cs => (.done, m.addEndpoint e cs)
  | .remove e => (.done, m.removeEndpoint e)
  | .ice e c s g => (.counted (m.handleIce e c s g).1, (m.handleIce e c s g).2)
  | .dtls e g => (.counted (m.handleDtls e g).1, (m.handleDtls e g).2)
  | .restart => (.generation m.restart.generation, m.restart)
  | .close => (.done, m.close)

/-- The machine after a history of calls. -/
def run (h : List Call) : ConnectionMachine := h.foldl (fun m x ↦ (m.call x).2) {}

theorem run_snoc (h : List Call) (x : Call) : run (h ++ [x]) = ((run h).call x).2 := by
  rw [run, List.foldl_append]
  rfl

/-! ## What a history says -/

/-- A component is followed: it was added, and its endpoint was not removed since. -/
def Follows (h : List Call) (e : EndpointId) (c : IceComponent) : Prop :=
  Since (fun _ x ↦ ∃ cs, x = .add e cs ∧ c ∈ cs) (fun _ x ↦ x = .remove e) h

/-- What a call, made after a history, says of a component. A component that comes to be followed
is new, an event of the current generation for a component that is followed gives its state, and a
restart puts every component back to checking. -/
def Says (h : List Call) (e : EndpointId) (c : IceComponent) (s : IceState) : Call → Prop
  | .add e' cs => e' = e ∧ c ∈ cs ∧ ¬Follows h e c ∧ s = .new
  | .ice e' c' s' g => e' = e ∧ c' = c ∧ Follows h e c ∧ g = h.count .restart ∧ s = s'
  | .restart => s = .checking
  | .remove _ | .dtls _ _ | .close => False

/-- What was said last of a component. -/
def Told (h : List Call) (e : EndpointId) (c : IceComponent) (s : IceState) : Prop :=
  Since (fun h x ↦ Says h e c s x) (fun h x ↦ ∃ s', Says h e c s' x) h

/-- The state of a component: the component is followed, and this was said of it last. -/
def Stands (h : List Call) (e : EndpointId) (c : IceComponent) (s : IceState) : Prop :=
  Follows h e c ∧ Told h e c s

/-- The handshake of an endpoint counted since the endpoint came to be followed: it completed in
the generation of the time, with the endpoint followed, which was not removed since. To add an
endpoint that is followed already does not begin anew. -/
def Secured (h : List Call) (e : EndpointId) : Prop :=
  Since (fun h x ↦ (∃ c, Follows h e c) ∧ x = .dtls e (h.count .restart))
    (fun _ x ↦ x = .remove e) h

variable {h : List Call} {x : Call} {m : ConnectionMachine} {e : EndpointId} {c : IceComponent}
  {s : IceState}

theorem follows_snoc : Follows (h ++ [x]) e c ↔
    (∃ cs, x = .add e cs ∧ c ∈ cs) ∨ (Follows h e c ∧ x ≠ .remove e) := since_snoc

/-- Only additions and removals change what is followed. -/
theorem follows_snoc_of (hadd : ∀ e cs, x ≠ .add e cs) (hremove : ∀ e, x ≠ .remove e) :
    Follows (h ++ [x]) e c ↔ Follows h e c := by
  rw [follows_snoc, and_iff_left (hremove e), or_iff_right]
  rintro ⟨cs, hx, _⟩
  exact hadd e cs hx

theorem stands_snoc : Stands (h ++ [x]) e c s ↔ Follows (h ++ [x]) e c ∧
    (Says h e c s x ∨ (Told h e c s ∧ ¬∃ s', Says h e c s' x)) :=
  and_congr_right fun _ ↦ since_snoc

theorem Says.unique {s' : IceState} (hs : Says h e c s x) (hs' : Says h e c s' x) : s = s' := by
  cases x with
  | add e' cs => exact hs.2.2.2.trans hs'.2.2.2.symm
  | ice e' c' s₀ g => exact hs.2.2.2.2.trans hs'.2.2.2.2.symm
  | restart => exact Eq.trans hs (Eq.symm hs')
  | remove e' => exact absurd hs not_false
  | dtls e' g => exact absurd hs not_false
  | close => exact absurd hs not_false

theorem Told.unique {s' : IceState} (hs : Told h e c s) (hs' : Told h e c s') : s = s' := by
  induction h using List.reverseRecOn with
  | nil => exact absurd hs not_since_nil
  | append_singleton h x ih =>
    rcases since_snoc.mp hs with hsays | ⟨hold, hsilent⟩
    · rcases since_snoc.mp hs' with hsays' | ⟨_, hsilent⟩
      · exact hsays.unique hsays'
      · exact absurd ⟨s, hsays⟩ hsilent
    · rcases since_snoc.mp hs' with hsays' | ⟨hold', _⟩
      · exact absurd ⟨s', hsays'⟩ hsilent
      · exact ih hold hold'

theorem secured_snoc : Secured (h ++ [x]) e ↔
    ((∃ c, Follows h e c) ∧ x = .dtls e (h.count .restart)) ∨ (Secured h e ∧ x ≠ .remove e) :=
  since_snoc

theorem count_restart_snoc (hx : x ≠ .restart) :
    (h ++ [x]).count .restart = h.count .restart := by
  rw [List.count_append, List.count_singleton, beq_false_of_ne hx]
  rfl

/-! ## What one call changes -/

theorem tracks_iff : m.tracks e c = true ↔ ∃ s, (⟨e, c, s⟩ : TrackedComponent) ∈ m.components := by
  simp only [tracks, List.any_eq_true, Bool.and_eq_true, beq_iff_eq]
  constructor
  · rintro ⟨⟨_, _, s⟩, ht, rfl, rfl⟩
    exact ⟨s, ht⟩
  · rintro ⟨s, ht⟩
    exact ⟨_, ht, rfl, rfl⟩

theorem hasEndpoint_iff_tracks : m.hasEndpoint e = true ↔ ∃ c, m.tracks e c = true := by
  rw [hasEndpoint_iff]
  constructor
  · rintro ⟨⟨_, c, s⟩, ht, rfl⟩
    exact ⟨c, tracks_iff.mpr ⟨s, ht⟩⟩
  · rintro ⟨c, hc⟩
    obtain ⟨s, ht⟩ := tracks_iff.mp hc
    exact ⟨_, ht, rfl⟩

@[simp] theorem secured_moveTo (m : ConnectionMachine) (s : ConnectionState) :
    (m.moveTo s).secured = m.secured := by
  rw [moveTo]
  split <;> rfl

@[simp] theorem generation_moveTo (m : ConnectionMachine) (s : ConnectionState) :
    (m.moveTo s).generation = m.generation := by
  rw [moveTo]
  split <;> rfl

@[simp] theorem secured_evaluate (m : ConnectionMachine) : m.evaluate.secured = m.secured := by
  rw [evaluate]
  split
  · rfl
  · exact secured_moveTo m _

@[simp] theorem generation_evaluate (m : ConnectionMachine) :
    m.evaluate.generation = m.generation := by
  rw [evaluate]
  split
  · rfl
  · exact generation_moveTo m _

/-- The fold reads the components and the handshakes only. -/
theorem aggregate_congr {m m' : ConnectionMachine} (hc : m.components = m'.components)
    (hs : m.secured = m'.secured) : m.aggregate = m'.aggregate := by
  rw [aggregate, aggregate, hc, hs]

/-- After the fold the state is what components and handshakes make. -/
theorem state_evaluate (hm : m.state ≠ .closed) : m.evaluate.state = m.evaluate.aggregate := by
  rw [aggregate_congr (components_evaluate m) (secured_evaluate m), evaluate, if_neg hm,
    state_moveTo]

theorem mem_components_track {e' : EndpointId} {c' : IceComponent} :
    (⟨e, c, s⟩ : TrackedComponent) ∈ (m.track e' c').components ↔
      ⟨e, c, s⟩ ∈ m.components ∨ (e' = e ∧ c' = c ∧ ¬m.tracks e c = true ∧ s = .new) := by
  rw [track]
  split
  · rename_i hc
    refine (or_iff_left ?_).symm
    rintro ⟨rfl, rfl, hnot, _⟩
    exact hnot hc
  · rename_i hc
    rw [List.mem_append, List.mem_singleton, TrackedComponent.mk.injEq]
    refine or_congr_right ⟨?_, ?_⟩
    · rintro ⟨rfl, rfl, rfl⟩
      exact ⟨rfl, rfl, hc, rfl⟩
    · rintro ⟨rfl, rfl, _, rfl⟩
      exact ⟨rfl, rfl, rfl⟩

theorem tracks_track {e' : EndpointId} {c' : IceComponent} :
    (m.track e' c').tracks e c = true ↔ m.tracks e c = true ∨ (e' = e ∧ c' = c) := by
  simp only [tracks_iff, mem_components_track, exists_or, exists_and_left, exists_eq, and_true]
  rw [← tracks_iff]
  tauto

theorem mem_components_foldl_track {e' : EndpointId} (cs : List IceComponent) :
    (⟨e, c, s⟩ : TrackedComponent) ∈ (cs.foldl (fun m c ↦ m.track e' c) m).components ↔
      ⟨e, c, s⟩ ∈ m.components ∨ (e' = e ∧ c ∈ cs ∧ ¬m.tracks e c = true ∧ s = .new) := by
  induction cs generalizing m with
  | nil => simp
  | cons c' cs ih =>
    rw [List.foldl_cons, ih, mem_components_track, tracks_track, List.mem_cons]
    grind

theorem tracks_foldl_track {e' : EndpointId} (cs : List IceComponent) :
    (cs.foldl (fun m c ↦ m.track e' c) m).tracks e c = true ↔
      m.tracks e c = true ∨ (e' = e ∧ c ∈ cs) := by
  induction cs generalizing m with
  | nil => simp
  | cons c' cs ih =>
    rw [List.foldl_cons, ih, tracks_track, List.mem_cons]
    grind

theorem secured_foldl_track {e' : EndpointId} (cs : List IceComponent) :
    (cs.foldl (fun m c ↦ m.track e' c) m).secured = m.secured := by
  induction cs generalizing m with
  | nil => rfl
  | cons c' cs ih =>
    rw [List.foldl_cons, ih, track]
    split <;> rfl

theorem generation_foldl_track {e' : EndpointId} (cs : List IceComponent) :
    (cs.foldl (fun m c ↦ m.track e' c) m).generation = m.generation := by
  induction cs generalizing m with
  | nil => rfl
  | cons c' cs ih =>
    rw [List.foldl_cons, ih, track]
    split <;> rfl

theorem mem_components_handleIce {e' : EndpointId} {c' : IceComponent} {s' : IceState} :
    (⟨e, c, s⟩ : TrackedComponent) ∈ (m.components.map fun (t : TrackedComponent) ↦
        if t.endpoint = e' ∧ t.component = c' then { t with state := s' } else t) ↔
      if e' = e ∧ c' = c then m.tracks e c = true ∧ s = s' else ⟨e, c, s⟩ ∈ m.components := by
  rw [List.mem_map, tracks_iff]
  constructor
  · rintro ⟨t, ht, heq⟩
    split at heq
    · rename_i hboth
      cases heq
      rw [if_pos ⟨hboth.1.symm, hboth.2.symm⟩]
      exact ⟨⟨t.state, ht⟩, rfl⟩
    · rename_i hother
      cases heq
      rwa [if_neg fun hboth ↦ hother ⟨hboth.1.symm, hboth.2.symm⟩]
  · split
    · rename_i hboth
      rintro ⟨⟨s₀, ht⟩, rfl⟩
      exact ⟨_, ht, by rw [if_pos ⟨hboth.1.symm, hboth.2.symm⟩]⟩
    · rename_i hother
      exact fun ht ↦ ⟨_, ht, if_neg fun hboth ↦ hother ⟨hboth.1.symm, hboth.2.symm⟩⟩

theorem mem_components_restart :
    (⟨e, c, s⟩ : TrackedComponent) ∈ (m.components.map fun (t : TrackedComponent) ↦
        { t with state := .checking }) ↔ m.tracks e c = true ∧ s = .checking := by
  rw [List.mem_map, tracks_iff]
  constructor
  · rintro ⟨t, ht, heq⟩
    cases heq
    exact ⟨⟨t.state, ht⟩, rfl⟩
  · rintro ⟨⟨s₀, ht⟩, rfl⟩
    exact ⟨_, ht, rfl⟩

theorem accepts_iff (hm : m.state ≠ .closed) {g : Nat} :
    m.accepts g = true ↔ g = m.generation := by
  rw [accepts, Bool.and_eq_true, beq_iff_eq, and_iff_right (decide_eq_true hm)]

/-- An event counts if it is of the current generation and its component is followed. -/
theorem handleIce_fst (m : ConnectionMachine) (e : EndpointId) (c : IceComponent) (s : IceState)
    (g : Nat) : (m.handleIce e c s g).1 = (m.accepts g && m.tracks e c) := by
  rw [handleIce]
  split
  · exact Eq.symm ‹_›
  · exact (Bool.eq_false_iff.mpr ‹_›).symm

theorem handleDtls_fst (m : ConnectionMachine) (e : EndpointId) (g : Nat) :
    (m.handleDtls e g).1 = (m.accepts g && m.hasEndpoint e) := by
  rw [handleDtls]
  split
  · exact Eq.symm ‹_›
  · exact (Bool.eq_false_iff.mpr ‹_›).symm

/-! ## The invariant -/

/-- A machine knows of its components and endpoints what its history says. -/
structure Recalls (m : ConnectionMachine) (h : List Call) : Prop where
  /-- The machine is not closed. -/
  not_closed : m.state ≠ .closed
  /-- The generation counts the restarts. -/
  generation : m.generation = h.count .restart
  /-- A component is followed if the history says so. -/
  tracks : ∀ e c, m.tracks e c = true ↔ Follows h e c
  /-- A component is in the state in which it stands. -/
  components : ∀ e c s, (⟨e, c, s⟩ : TrackedComponent) ∈ m.components ↔ Stands h e c s
  /-- An endpoint has its handshake if it is secured. -/
  secured : ∀ e, e ∈ m.secured ↔ Secured h e
  /-- The state was folded after the last change. -/
  state : m.state = m.aggregate

namespace Recalls

theorem nil : Recalls {} [] where
  not_closed := ConnectionState.noConfusion
  generation := rfl
  tracks _ _ := iff_of_false Bool.false_ne_true not_since_nil
  components _ _ _ := iff_of_false List.not_mem_nil fun h ↦ not_since_nil h.1
  secured _ := iff_of_false List.not_mem_nil not_since_nil
  state := rfl

theorem hasEndpoint (hr : Recalls m h) (e : EndpointId) :
    m.hasEndpoint e = true ↔ ∃ c, Follows h e c := by
  rw [hasEndpoint_iff_tracks]
  exact exists_congr fun c ↦ hr.tracks e c

theorem counted_ice (hr : Recalls m h) (e : EndpointId) (c : IceComponent) (s : IceState)
    (g : Nat) : (m.handleIce e c s g).1 = true ↔ Follows h e c ∧ g = h.count .restart := by
  rw [handleIce_fst, Bool.and_eq_true, accepts_iff hr.not_closed, hr.tracks, hr.generation,
    and_comm]

theorem counted_dtls (hr : Recalls m h) (e : EndpointId) (g : Nat) :
    (m.handleDtls e g).1 = true ↔ (∃ c, Follows h e c) ∧ g = h.count .restart := by
  rw [handleDtls_fst, Bool.and_eq_true, accepts_iff hr.not_closed, hr.hasEndpoint, hr.generation,
    and_comm]

/-- A call that says nothing new leaves a machine in step that it leaves unchanged. -/
theorem congr {h' : List Call} (hr : Recalls m h) (hg : h'.count .restart = h.count .restart)
    (hfollows : ∀ e c, Follows h' e c ↔ Follows h e c)
    (hstands : ∀ e c s, Stands h' e c s ↔ Stands h e c s)
    (hsecured : ∀ e, Secured h' e ↔ Secured h e) : Recalls m h' where
  not_closed := hr.not_closed
  generation := hr.generation.trans hg.symm
  tracks e c := (hr.tracks e c).trans (hfollows e c).symm
  components e c s := (hr.components e c s).trans (hstands e c s).symm
  secured e := (hr.secured e).trans (hsecured e).symm
  state := hr.state

/-- What a fold leaves to show: the components, the handshakes and the generation. -/
theorem evaluate {h : List Call} (hm : m.state ≠ .closed) (hg : m.generation = h.count .restart)
    (htracks : ∀ e c, m.tracks e c = true ↔ Follows h e c)
    (hcomponents : ∀ e c s, (⟨e, c, s⟩ : TrackedComponent) ∈ m.components ↔ Stands h e c s)
    (hsecured : ∀ e, e ∈ m.secured ↔ Secured h e) : Recalls m.evaluate h where
  not_closed := fun hc ↦ hm (state_evaluate_eq_closed.mp hc)
  generation := by rw [generation_evaluate, hg]
  tracks e c := by rw [ConnectionMachine.tracks, components_evaluate]; exact htracks e c
  components e c s := by rw [components_evaluate]; exact hcomponents e c s
  secured e := by rw [secured_evaluate]; exact hsecured e
  state := state_evaluate hm

theorem addEndpoint (hr : Recalls m h) (e' : EndpointId) (cs : List IceComponent) :
    Recalls (m.addEndpoint e' cs) (h ++ [.add e' cs]) := by
  have hfollows (e : EndpointId) (c : IceComponent) :
      Follows (h ++ [.add e' cs]) e c ↔ Follows h e c ∨ (e' = e ∧ c ∈ cs) := by
    rw [follows_snoc]
    grind
  rw [ConnectionMachine.addEndpoint, if_neg hr.not_closed]
  refine evaluate ?_ ?_ (fun e c ↦ ?_) (fun e c s ↦ ?_) (fun e ↦ ?_)
  · rw [state_foldl_track]
    exact hr.not_closed
  · rw [generation_foldl_track, hr.generation, count_restart_snoc Call.noConfusion]
  · rw [tracks_foldl_track, hfollows, hr.tracks]
  · rw [mem_components_foldl_track, hr.components, hr.tracks, stands_snoc, hfollows]
    simp only [Stands, Says]
    grind
  · rw [secured_foldl_track, hr.secured, secured_snoc]
    grind

theorem removeEndpoint (hr : Recalls m h) (e' : EndpointId) :
    Recalls (m.removeEndpoint e') (h ++ [.remove e']) := by
  have hfollows (e : EndpointId) (c : IceComponent) :
      Follows (h ++ [.remove e']) e c ↔ Follows h e c ∧ e ≠ e' := by
    rw [follows_snoc]
    grind
  rw [ConnectionMachine.removeEndpoint]
  refine evaluate hr.not_closed ?_ (fun e c ↦ ?_) (fun e c s ↦ ?_) (fun e ↦ ?_)
  · rw [hr.generation, count_restart_snoc Call.noConfusion]
  · rw [tracks_iff, hfollows, ← hr.tracks, tracks_iff, ← exists_and_right]
    simp
  · rw [stands_snoc, hfollows]
    simp only [List.mem_filter, bne_iff_ne, hr.components, Stands, Says]
    grind
  · rw [secured_snoc]
    simp only [List.mem_filter, bne_iff_ne, hr.secured]
    grind

theorem handleIce (hr : Recalls m h) (e' : EndpointId) (c' : IceComponent) (s' : IceState)
    (g : Nat) : Recalls (m.handleIce e' c' s' g).2 (h ++ [.ice e' c' s' g]) := by
  have hfollows (e : EndpointId) (c : IceComponent) :
      Follows (h ++ [.ice e' c' s' g]) e c ↔ Follows h e c :=
    follows_snoc_of (fun _ _ ↦ Call.noConfusion) fun _ ↦ Call.noConfusion
  have hsecured (e : EndpointId) : Secured (h ++ [.ice e' c' s' g]) e ↔ Secured h e := by
    rw [secured_snoc]
    grind
  have hgeneration : (h ++ [Call.ice e' c' s' g]).count .restart = h.count .restart :=
    count_restart_snoc Call.noConfusion
  have hcounted := hr.counted_ice e' c' s' g
  rw [handleIce_fst] at hcounted
  rw [ConnectionMachine.handleIce]
  -- an event that counts is the last word on its component, and any other is no word
  by_cases hcounts : Follows h e' c' ∧ g = h.count .restart
  · rw [if_pos (hcounted.mpr hcounts)]
    refine evaluate hr.not_closed ?_ (fun e c ↦ ?_) (fun e c s ↦ ?_) (fun e ↦ ?_)
    · rw [hgeneration, hr.generation]
    · rw [tracks_iff, hfollows, ← hr.tracks]
      simp only [mem_components_handleIce]
      by_cases hboth : e' = e ∧ c' = c
      · simp [hboth]
      · simp only [if_neg hboth, tracks_iff]
    · rw [mem_components_handleIce, stands_snoc, hfollows, hr.components, hr.tracks]
      simp only [Stands, Says]
      grind
    · rw [hsecured]
      exact hr.secured e
  · rw [if_neg fun hc ↦ hcounts (hcounted.mp hc)]
    refine hr.congr hgeneration hfollows (fun e c s ↦ ?_) hsecured
    rw [stands_snoc, hfollows]
    simp only [Stands, Says]
    grind

theorem handleDtls (hr : Recalls m h) (e' : EndpointId) (g : Nat) :
    Recalls (m.handleDtls e' g).2 (h ++ [.dtls e' g]) := by
  have hfollows (e : EndpointId) (c : IceComponent) :
      Follows (h ++ [.dtls e' g]) e c ↔ Follows h e c :=
    follows_snoc_of (fun _ _ ↦ Call.noConfusion) fun _ ↦ Call.noConfusion
  have hstands (e : EndpointId) (c : IceComponent) (s : IceState) :
      Stands (h ++ [.dtls e' g]) e c s ↔ Stands h e c s := by
    rw [stands_snoc, hfollows]
    simp only [Stands, Says]
    grind
  have hgeneration : (h ++ [Call.dtls e' g]).count .restart = h.count .restart :=
    count_restart_snoc Call.noConfusion
  have hcounted := hr.counted_dtls e' g
  rw [handleDtls_fst] at hcounted
  rw [ConnectionMachine.handleDtls]
  -- a handshake that counts is remembered, and any other changes nothing
  by_cases hcounts : (∃ c, Follows h e' c) ∧ g = h.count .restart
  · rw [if_pos (hcounted.mpr hcounts)]
    refine evaluate hr.not_closed ?_ (fun e c ↦ ?_) (fun e c s ↦ ?_) (fun e ↦ ?_)
    · rw [hgeneration, hr.generation]
    · rw [hfollows]
      exact hr.tracks e c
    · rw [hstands]
      exact hr.components e c s
    · have hmem : e ∈ (if m.secured.contains e' then m.secured else m.secured ++ [e']) ↔
          e ∈ m.secured ∨ e = e' := by
        split <;> simp_all
      rw [hmem, hr.secured, secured_snoc]
      grind
  · rw [if_neg fun hc ↦ hcounts (hcounted.mp hc)]
    refine hr.congr hgeneration hfollows hstands fun e ↦ ?_
    rw [secured_snoc]
    grind

theorem restart (hr : Recalls m h) : Recalls m.restart (h ++ [.restart]) := by
  have hfollows (e : EndpointId) (c : IceComponent) :
      Follows (h ++ [.restart]) e c ↔ Follows h e c :=
    follows_snoc_of (fun _ _ ↦ Call.noConfusion) fun _ ↦ Call.noConfusion
  rw [ConnectionMachine.restart, if_neg hr.not_closed]
  refine evaluate hr.not_closed ?_ (fun e c ↦ ?_) (fun e c s ↦ ?_) (fun e ↦ ?_)
  · rw [hr.generation, List.count_append]
    rfl
  · rw [tracks_iff, hfollows, ← hr.tracks]
    simp only [mem_components_restart, exists_and_left, exists_eq, and_true]
  · rw [mem_components_restart, stands_snoc, hfollows, hr.tracks]
    simp only [Says]
    grind
  · rw [secured_snoc]
    refine (hr.secured e).trans ?_
    grind

/-- Every call but a close keeps the machine in step with its history. -/
theorem call (hr : Recalls m h) {x : Call} (hx : x ≠ .close) :
    Recalls (m.call x).2 (h ++ [x]) := by
  cases x with
  | add e cs => exact hr.addEndpoint e cs
  | remove e => exact hr.removeEndpoint e
  | ice e c s g => exact hr.handleIce e c s g
  | dtls e g => exact hr.handleDtls e g
  | restart => exact hr.restart
  | close => exact absurd rfl hx

end Recalls

theorem recalls_run (hopen : .close ∉ h) : Recalls (run h) h := by
  induction h using List.reverseRecOn with
  | nil => exact Recalls.nil
  | append_singleton h x ih =>
    rw [List.mem_append, not_or, List.mem_singleton] at hopen
    rw [run_snoc]
    exact (ih hopen.1).call (Ne.symm hopen.2)

end ConnectionMachine

end OfferAnswer
