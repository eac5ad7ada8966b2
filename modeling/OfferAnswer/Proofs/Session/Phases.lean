import OfferAnswer.Proofs.Session.Plans
import OfferAnswer.Proofs.Session.Positional

/-!
# Where an exchange stands

A session remembers the stage of its exchange several times over: in its state, in the offer that is
pending, in the state it was settled in, in the connection and in the lengths of its lists. No
single operation is responsible for their agreement, so it is stated as one invariant,
`Session.Ordered`.

One clause of it is different from the others. That an answered session is not connected holds only
after a session is settled, which is the last thing an operation does. `Session.Staged` is the
invariant without that clause; it holds in between, and settling gives the rest.

Two clauses are there for the induction. That a pending offer is the last description, and has a
handler position for every section, is what an answer needs to leave lists of one length. That an
answered session remembers its own state is what a restart needs to go back to it.
-/

namespace OfferAnswer.Session

variable {s s' : Session}

/-! ## The invariant -/

/-- Whether the last exchange is settled, and nothing more is known. -/
def IsAnswered (s : Session) : Prop := s.state = .answerProcessed ∨ s.state = .answerGenerated

/-- A session whose parts agree on the stage of its exchange. -/
structure Staged (s : Session) : Prop where
  /-- No offer is left half answered. -/
  not_received : s.state ≠ .offerReceived
  /-- An offer is pending exactly while its answer is awaited. -/
  pending_iff : s.pending.isSome = true ↔ s.state = .offerGenerated
  /-- It is our last description, and every section of it has a position. -/
  pending_last : ∀ p, s.pending = some p →
    s.ours = some p.offer ∧ p.handlers.length = p.offer.sections.length
  /-- An answered session remembers its state. -/
  settled_eq : s.IsAnswered → s.settled = s.state
  /-- An established session remembers in which way it was answered. -/
  settled_of_established : s.state = .established →
    s.settled = .answerProcessed ∨ s.settled = .answerGenerated
  /-- Session and connection are closed together. -/
  closed_iff : s.state = .closed ↔ s.connection.state = .closed
  /-- A closed session has no endpoints. -/
  no_endpoints : s.state = .closed → s.transport.endpoints = []
  /-- Once the peer has described itself, there is one outcome and one position for each of its
  sections. -/
  lengths_eq : ∀ d, s.theirs = some d → d.sections.length = s.negotiated.length ∧
    s.sectionHandlers.length = s.negotiated.length
  /-- And we have described at least those sections. -/
  length_le : s.theirs.isSome = true →
    ∃ d, s.ours = some d ∧ s.negotiated.length ≤ d.sections.length

/-- A session between two operations. -/
structure Ordered (s : Session) : Prop extends Staged s where
  /-- An answered session is not connected: it would be established. -/
  not_connected : s.IsAnswered → s.connection.state.isConnected = false

/-! ## Settling -/

theorem Staged.settle (h : s.Staged) : s.settle.Ordered := by
  rw [Session.settle]
  split
  · rename_i hup
    -- the session was answered, so it was neither awaiting an answer nor closed
    have hsettled : s.settled = s.state := h.settled_eq hup.1
    have hpending : s.pending.isSome = false := by
      rw [Bool.eq_false_iff, ne_eq, h.pending_iff]
      rcases hup.1 with hs | hs <;> simp [hs]
    have hopen : s.connection.state ≠ .closed := by
      rw [ne_eq, ← h.closed_iff]
      rcases hup.1 with hs | hs <;> simp [hs]
    refine ⟨⟨by simp, by simp [hpending], h.pending_last, ?_, ?_, by simp [hopen], by simp,
      h.lengths_eq, h.length_le⟩, ?_⟩
    · rintro (hs | hs) <;> cases hs
    · intro _
      rw [hsettled]
      exact hup.1
    · rintro (hs | hs) <;> cases hs
  · rename_i hdown
    refine ⟨h, ?_⟩
    intro hanswered
    cases hconn : s.connection.state.isConnected with
    | true => exact absurd ⟨hanswered, hconn⟩ hdown
    | false => rfl

/-- A change of the connection that does not close it keeps the session staged. -/
theorem Staged.withConnection (h : s.Staged) {connection : ConnectionMachine}
    (hclosed : connection.state = .closed ↔ s.connection.state = .closed) :
    Staged { s with connection := connection } :=
  { h with closed_iff := h.closed_iff.trans hclosed.symm }

/-! ## Exchanges -/

theorem ordered_build {config : SessionConfig} {e : Entropy} (h : build config e = .ok s) :
    s.Ordered := by
  obtain ⟨handlers, -, rfl⟩ := build_eq h
  refine ⟨?_, ?_⟩
  · constructor <;> simp [create, IsAnswered]
  · rintro (hs | hs) <;> cases hs

theorem Ordered.generateOffer (h : s.Ordered) (hsound : s.Sound) (ports : PortAllocator) :
    (s.generateOffer ports).session.Ordered := by
  rcases generateOffer_cases hsound.exclusive ports with ⟨e, hr⟩ | ⟨hopen, run, hr⟩
  · rw [hr]
    exact h
  rw [hr]
  have hplaced : run.placed.length = run.plan.length := by
    simpa using run.fates.length_eq.symm
  have hlen : s.negotiated.length ≤ run.offer.sections.length := by
    rw [run.length_sections]
    exact length_le_of_planOffer run.plan_eq
  have hconn : s.connection.state ≠ .closed := fun hc ↦ hopen (h.closed_iff.mpr hc)
  obtain ⟨_, _, _, hw⟩ := run.written_eq
  rw [hw]
  refine ⟨⟨by simp, by simp, ?_, ?_, by simp, by simp [hconn], by simp, h.lengths_eq,
    fun _ ↦ ⟨run.offer, rfl, hlen⟩⟩, ?_⟩
  · intro p hp
    obtain rfl := Option.some.inj hp
    refine ⟨rfl, ?_⟩
    rw [run.length_sections, List.length_map, hplaced]
  · rintro (hs | hs) <;> cases hs
  · rintro (hs | hs) <;> cases hs

/-- What a commit leaves is staged once the descriptions are stored, in whichever role. -/
theorem Committed.staged {remote : Description} {state : NegotiationState}
    {negotiated : List NegotiatedMedia} {positions : List (Option Nat)}
    (h : Committed s s' remote negotiated positions) (own : Description)
    (hopen : s.connection.state ≠ .closed) (hpending : s.pending = none)
    (hstate : state = .answerProcessed ∨ state = .answerGenerated)
    (hremote : remote.sections.length = negotiated.length)
    (hpositions : positions.length = negotiated.length)
    (hown : negotiated.length ≤ own.sections.length) :
    Staged { s' with
      ours := some own, theirs := some remote, settled := state, state := state } := by
  have hconn : s'.connection.state ≠ .closed := fun hc ↦ hopen (h.closed_iff.mp hc)
  have hne : state ≠ .closed := by rcases hstate with rfl | rfl <;> simp
  obtain ⟨transport, ssrcs, entropy, correlation, connection, rfl⟩ := h.record
  refine ⟨?_, ?_, by simp [hpending], fun _ ↦ rfl, ?_, ?_, fun hc ↦ absurd hc hne, ?_, ?_⟩
  · rcases hstate with rfl | rfl <;> simp
  · rcases hstate with rfl | rfl <;> simp [hpending]
  · rcases hstate with rfl | rfl <;> simp
  · exact ⟨fun hc ↦ absurd hc hne, fun hc ↦ absurd hc hconn⟩
  · intro d hd
    obtain rfl := Option.some.inj hd
    exact ⟨hremote, hpositions⟩
  · exact fun _ ↦ ⟨own, rfl, hown⟩

theorem Ordered.processOffer (h : s.Ordered) (hsound : s.Sound) (ports : PortAllocator)
    (remote : Description) : (s.processOffer ports remote).session.Ordered := by
  rcases processOffer_cases hsound.exclusive hsound.hasPem hsound.answerSetup_ne ports remote with
    ⟨e, hr⟩ | ⟨htakes, -, run, hr⟩
  · rw [hr]
    exact h
  rw [hr]
  have hpending : s.pending = none := by
    cases hp : s.pending with
    | none => rfl
    | some p =>
      rw [h.pending_iff.mp (by simp [hp])] at htakes
      cases htakes
  have hconn : run.secured.connection.state ≠ .closed := by
    change run.written.2.connection.state ≠ .closed
    rw [run.connection_written]
    exact fun hc ↦ takesOffer_ne_closed htakes (h.closed_iff.mpr hc)
  have hnone : run.secured.pending = none := by
    obtain ⟨_, _, _, hw⟩ := run.written_eq
    change run.written.2.pending = none
    rw [hw]
    exact hpending
  have hcommit := committed_commit (run.ready.exclusive.congr run.outline_secured) run.place.ports
    remote run.answer run.outcomes.1 (run.placed.map Planned.handler)
  have hlen := run.length_negotiated
  refine (hcommit.staged run.answer hconn hnone (Or.inr rfl) hlen.symm ?_ ?_).settle
  · rw [List.length_map, run.length_placed, hlen]
  · exact Nat.le_of_eq (hlen.trans run.length_sections.symm)

theorem length_of_checkAnswer {offer answer : Description}
    (h : s.checkAnswer offer answer = .ok ()) :
    answer.sections.length = offer.sections.length := by
  rw [checkAnswer] at h
  cases hconsistent : checkConsistent answer with
  | error e =>
    rw [hconsistent] at h
    cases h
  | ok _ =>
    rw [hconsistent] at h
    change (if _ then _ else _) = _ at h
    split at h
    · cases h
    · rename_i hlen
      exact not_not.mp hlen

theorem Ordered.processAnswer (h : s.Ordered) (hsound : s.Sound) (ports : PortAllocator)
    (answer : Description) : (s.processAnswer ports answer).session.Ordered := by
  rcases processAnswer_cases hsound.hasPem ports answer with ⟨e, hr⟩ | ⟨hstate, p, hp, run, hr⟩
  · rw [hr]
    exact h
  rw [hr]
  obtain ⟨hours, hhandlers⟩ := h.pending_last p hp
  have hconn : s.connection.state ≠ .closed := by
    rw [ne_eq, ← h.closed_iff, hstate]
    simp
  have hanswer := length_of_checkAnswer run.checked
  have hlen : run.outcomes.1.length = p.offer.sections.length := by
    rw [(settleSections_spec run.settle_eq).1, List.length_zip, hanswer, Nat.min_self]
  have hcommit := committed_commit (hsound.exclusive.congr run.outline_secured) ports answer answer
    run.outcomes.1 p.handlers
  have hstaged := hcommit.staged p.offer hconn rfl (Or.inl rfl) (hanswer.trans hlen.symm)
    (hhandlers.trans hlen.symm) (Nat.le_of_eq hlen)
  -- the offer that was answered is still our last description
  have hlast : (run.secured.commit ports answer answer run.outcomes.1 p.handlers).1.ours =
      some p.offer := by
    obtain ⟨_, _, _, _, _, hrecord⟩ := hcommit.record
    rw [hrecord]
    exact hours
  rw [← hlast] at hstaged
  exact hstaged.settle

/-! ## Candidates, restarts and events -/

theorem Ordered.addLocalCandidate (h : s.Ordered) (ports : PortAllocator) (c : Candidate) :
    (s.addLocalCandidate ports c).session.Ordered := by
  rw [Session.addLocalCandidate]
  split
  · exact h
  · split
    · exact h
    · exact { h with }

theorem endpoints_addRemoteCandidate_eq_nil {b : TransportBinding} (h : b.endpoints = [])
    (id : EndpointId) (c : Candidate) : (b.addRemoteCandidate id c).2.endpoints = [] := by
  have houtline := congrArg TransportBinding.endpoints (b.outline_addRemoteCandidate id c)
  simpa [TransportBinding.outline, h] using houtline

theorem Ordered.addCandidateAt (h : s.Ordered) (ports : PortAllocator) (remote : Description)
    (c : Candidate) (i : Nat) (n : NegotiatedMedia) :
    (s.addCandidateAt ports remote c i n).session.Ordered := by
  rw [Session.addCandidateAt]
  split
  · exact h
  · split
    · exact h
    · rename_i id _ _
      exact { h with
        no_endpoints := fun hc ↦ endpoints_addRemoteCandidate_eq_nil (h.no_endpoints hc) id c }

theorem Ordered.addRemoteCandidate (h : s.Ordered) (ports : PortAllocator) (mid : Option Mid)
    (index : Option Nat) (line : String) :
    (s.addRemoteCandidate ports mid index line).session.Ordered := by
  rw [Session.addRemoteCandidate]
  split
  · exact h
  · exact h
  · split
    · exact h
    · exact h
    · split
      · exact h
      · split
        · exact h
        · exact h.addCandidateAt ports _ _ _ _

/-- A restart takes an established session back to the state in which it was answered, and there it
is not connected. -/
theorem Ordered.restartIce (h : s.Ordered) (ports : PortAllocator) :
    (s.restartIce ports).session.Ordered := by
  rw [Session.restartIce]
  split
  · exact h
  rename_i hmay
  have hopen : s.state ≠ .closed := by
    intro hc
    simp [mayRestart, hc] at hmay
  have hconn : s.connection.state ≠ .closed := fun hc ↦ hopen (h.closed_iff.mpr hc)
  have hrestarted : s.connection.restart.state ≠ .closed := fun hc ↦
    hconn (s.connection.state_restart_eq_closed.mp hc)
  have hdown := ConnectionMachine.isConnected_restart hconn
  by_cases hestablished : s.state = .established
  · have hsettled := h.settled_of_established hestablished
    have hpending : s.pending.isSome = false := by
      rw [Bool.eq_false_iff, ne_eq, h.pending_iff, hestablished]
      simp
    simp only [hestablished, if_true]
    rcases hsettled with hs | hs <;> rw [hs] <;>
      exact ⟨⟨by simp, by simp [hpending], h.pending_last, fun _ ↦ rfl, by simp,
        by simp [hrestarted], by simp, h.lengths_eq, h.length_le⟩, fun _ ↦ hdown⟩
  · simp only [hestablished, if_false]
    exact ⟨⟨h.not_received, h.pending_iff, h.pending_last, h.settled_eq, h.settled_of_established,
      ⟨fun hc ↦ absurd hc hopen, fun hc ↦ absurd hc hrestarted⟩, h.no_endpoints, h.lengths_eq,
      h.length_le⟩, fun _ ↦ hdown⟩

theorem Ordered.handleIce (h : s.Ordered) (ports : PortAllocator) (endpoint : EndpointId)
    (component : IceComponent) (state : IceState) (generation : Nat) :
    (s.handleIce ports endpoint component state generation).session.Ordered := by
  rw [Session.handleIce]
  split
  · exact h
  · split
    · exact h
    · exact (h.toStaged.withConnection
        (s.connection.state_handleIce_eq_closed endpoint component state generation)).settle

theorem Ordered.handleDtls (h : s.Ordered) (ports : PortAllocator) (endpoint : EndpointId)
    (generation : Nat) : (s.handleDtls ports endpoint generation).session.Ordered := by
  rw [Session.handleDtls]
  split
  · exact h
  · split
    · exact h
    · exact (h.toStaged.withConnection
        (s.connection.state_handleDtls_eq_closed endpoint generation)).settle

theorem Ordered.close (h : s.Ordered) (ports : PortAllocator) :
    (s.close ports).session.Ordered := by
  rw [Session.close]
  split
  · exact h
  refine ⟨⟨by simp, by simp, by simp, ?_, by simp, ?_, fun _ ↦ rfl, ?_, ?_⟩, ?_⟩
  · rintro (hs | hs) <;> cases hs
  · simp [ConnectionMachine.close]
  · simpa using h.lengths_eq
  · simpa using h.length_le
  · rintro (hs | hs) <;> cases hs

/-! ## Every session -/

/-- **Every operation keeps the session in order**, whatever it returns. -/
theorem Ordered.call (h : s.Ordered) (hsound : s.Sound) (ports : PortAllocator) (c : SessionCall) :
    (s.call ports c).session.Ordered := by
  cases c with
  | offer => exact h.generateOffer hsound ports
  | answer offer => exact h.processOffer hsound ports offer
  | accept answer => exact h.processAnswer hsound ports answer
  | localCandidate c => exact h.addLocalCandidate ports c
  | remoteCandidate mid index line => exact h.addRemoteCandidate ports mid index line
  | restartIce => exact h.restartIce ports
  | ice endpoint component state generation =>
    exact h.handleIce ports endpoint component state generation
  | dtls endpoint generation => exact h.handleDtls ports endpoint generation
  | close => exact h.close ports

theorem Reachable.ordered (h : s.Reachable) : s.Ordered := by
  induction h with
  | build hbuild => exact ordered_build hbuild
  | call ports c hs ih => exact ih.call hs.sound ports c
  | rtcp buffer _ ih => exact { ih with }

/-- **Between operations, all parts of a session agree on where its exchange stands.** Whatever a
session that was built has been through, failed operations and restarts included: no offer is left
half answered, an offer is pending exactly while its answer is awaited, an answered session is not
connected, an established one was answered, session and connection are closed together and then
without endpoints, and once the peer has described itself its sections, our outcomes and our handler
positions are as many, and no more than the sections we described ourselves. -/
theorem stages_agree (h : s.Reachable) :
    s.state ≠ .offerReceived ∧
      (s.pending.isSome = true ↔ s.state = .offerGenerated) ∧
      (s.state = .answerProcessed ∨ s.state = .answerGenerated →
        s.connection.state ≠ .connected ∧ s.connection.state ≠ .completed) ∧
      (s.state = .established → s.settled = .answerProcessed ∨ s.settled = .answerGenerated) ∧
      (s.state = .closed ↔ s.connection.state = .closed) ∧
      (s.state = .closed → s.transport.endpoints = []) ∧
      ∀ remote, s.theirs = some remote → remote.sections.length = s.negotiated.length ∧
        s.sectionHandlers.length = s.negotiated.length ∧
          ∃ own, s.ours = some own ∧ s.negotiated.length ≤ own.sections.length := by
  have hs := h.ordered
  refine ⟨hs.not_received, hs.pending_iff, ?_, hs.settled_of_established, hs.closed_iff,
    hs.no_endpoints, ?_⟩
  · intro hanswered
    have hdown := hs.not_connected hanswered
    constructor <;> intro hstate <;> rw [hstate] at hdown <;> cases hdown
  · intro remote hremote
    obtain ⟨hlen, hpositions⟩ := hs.lengths_eq remote hremote
    exact ⟨hlen, hpositions, hs.length_le (by simp [hremote])⟩

theorem established_stages_agree :
    let s := (((ofChannels ⟨fun i ↦ i, 0⟩).call {} (.answer mixedOffer)).session.call {}
      (.ice 1 .rtp .connected 0)).session
    s.state = .established ∧ s.pending.isSome = false ∧
      (s.settled = .answerProcessed ∨ s.settled = .answerGenerated) ∧
      ∃ remote own, s.theirs = some remote ∧ s.ours = some own ∧
        remote.sections.length = s.negotiated.length ∧
        s.sectionHandlers.length = s.negotiated.length ∧
        s.negotiated.length ≤ own.sections.length := by
  intro s
  have hs : s.Reachable := .call _ _ (.call _ _ (reachable_ofChannels _))
  have hstate : s.state = .established := by decide +kernel
  have htheirs : s.theirs.isSome = true := by decide +kernel
  obtain ⟨remote, hremote⟩ := Option.isSome_iff_exists.mp htheirs
  obtain ⟨-, hpending, -, hsettled, -, -, hlengths⟩ := stages_agree hs
  obtain ⟨hlen, hpositions, own, hown, hle⟩ := hlengths remote hremote
  refine ⟨hstate, ?_, hsettled hstate, remote, own, hremote, hown, hlen, hpositions, hle⟩
  rw [Bool.eq_false_iff, ne_eq, hpending, hstate]
  simp

end OfferAnswer.Session
