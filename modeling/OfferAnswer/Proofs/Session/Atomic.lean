import OfferAnswer.Proofs.Session.Invariant

/-!
# A failed operation changes nothing

An operation that returns an error leaves session and ports exactly as they were. For most
operations this is how they are written: they check first. Answering and applying an answer work on
the machines before the last of their error returns, and putting the ports back would not be enough,
since sources were drawn and the version moved on. They are atomic because those error returns are
never taken: in a session that was built and operated, placing sections and securing endpoints
cannot fail.
-/

namespace OfferAnswer

/-! ## Replies -/

namespace Reply

variable {α β : Type}

/-- Whether a reply that is an error leaves session and ports as they were. -/
def IsAtomic (r : Reply α) (s : Session) (ports : PortAllocator) : Prop :=
  ∀ e, r.result = .error e → r.session = s ∧ r.ports = ports

theorem isAtomic_unchanged (s : Session) (ports : PortAllocator)
    (result : Except NegotiationError α) : (s.unchanged ports result).IsAtomic s ports :=
  fun _ _ ↦ ⟨rfl, rfl⟩

theorem isAtomic_ok (s s' : Session) (ports ports' : PortAllocator) (value : α) :
    (Reply.mk (.ok value) s' ports').IsAtomic s ports :=
  nofun

theorem IsAtomic.map {r : Reply α} {s : Session} {ports : PortAllocator} (h : r.IsAtomic s ports)
    (f : α → β) : (r.map f).IsAtomic s ports := by
  intro e he
  rw [Reply.map] at he
  cases hr : r.result with
  | error e' => exact h e' hr
  | ok value =>
    rw [hr] at he
    cases he

end Reply

namespace Session

open Reply

variable {s : Session} {ports : PortAllocator}

/-! ## Operations that take something before they return -/

theorem Sound.isAtomic_generateOffer (h : s.Sound) (ports : PortAllocator) :
    (s.generateOffer ports).IsAtomic s ports := by
  rcases generateOffer_cases h.exclusive ports with ⟨e, hr⟩ | ⟨-, run, hr⟩
  · rw [hr]
    exact isAtomic_unchanged s ports _
  · rw [hr]
    exact isAtomic_ok s _ ports _ _

theorem Sound.isAtomic_processOffer (h : s.Sound) (ports : PortAllocator) (remote : Description) :
    (s.processOffer ports remote).IsAtomic s ports := by
  rcases processOffer_cases h.exclusive h.hasPem h.answerSetup_ne ports remote with
    ⟨e, hr⟩ | ⟨-, -, run, hr⟩
  · rw [hr]
    exact isAtomic_unchanged s ports _
  · rw [hr]
    exact isAtomic_ok s _ ports _ _

theorem Sound.isAtomic_processAnswer (h : s.Sound) (ports : PortAllocator) (answer : Description) :
    (s.processAnswer ports answer).IsAtomic s ports := by
  rcases processAnswer_cases h.hasPem ports answer with ⟨e, hr⟩ | ⟨-, pending, -, run, hr⟩
  · rw [hr]
    exact isAtomic_unchanged s ports _
  · rw [hr]
    exact isAtomic_ok s _ ports _ _

/-! ## Operations that check first -/

theorem isAtomic_addLocalCandidate (s : Session) (ports : PortAllocator) (c : Candidate) :
    (s.addLocalCandidate ports c).IsAtomic s ports := by
  rw [addLocalCandidate]
  split
  · exact isAtomic_unchanged s ports _
  · split
    · exact isAtomic_unchanged s ports _
    · exact isAtomic_ok s _ ports _ _

theorem isAtomic_addCandidateAt (s : Session) (ports : PortAllocator) (remote : Description)
    (c : Candidate) (i : Nat) (n : NegotiatedMedia) :
    (s.addCandidateAt ports remote c i n).IsAtomic s ports := by
  rw [addCandidateAt]
  split
  · exact isAtomic_unchanged s ports _
  · split
    · exact isAtomic_unchanged s ports _
    · exact isAtomic_ok s _ ports _ _

theorem isAtomic_addRemoteCandidate (s : Session) (ports : PortAllocator) (mid : Option Mid)
    (index : Option Nat) (line : String) :
    (s.addRemoteCandidate ports mid index line).IsAtomic s ports := by
  rw [addRemoteCandidate]
  split
  · exact isAtomic_unchanged s ports _
  · exact isAtomic_unchanged s ports _
  · split
    · exact isAtomic_unchanged s ports _
    · exact isAtomic_unchanged s ports _
    · split
      · exact isAtomic_unchanged s ports _
      · split
        · exact isAtomic_unchanged s ports _
        · exact isAtomic_addCandidateAt s ports _ _ _ _

theorem isAtomic_restartIce (s : Session) (ports : PortAllocator) :
    (s.restartIce ports).IsAtomic s ports := by
  rw [restartIce]
  split
  · exact isAtomic_unchanged s ports _
  · exact isAtomic_ok s _ ports _ _

theorem isAtomic_handleIce (s : Session) (ports : PortAllocator) (endpoint : EndpointId)
    (component : IceComponent) (state : IceState) (generation : Nat) :
    (s.handleIce ports endpoint component state generation).IsAtomic s ports := by
  rw [handleIce]
  split
  · exact isAtomic_unchanged s ports _
  · split
    · exact isAtomic_unchanged s ports _
    · exact isAtomic_ok s _ ports _ _

theorem isAtomic_handleDtls (s : Session) (ports : PortAllocator) (endpoint : EndpointId)
    (generation : Nat) : (s.handleDtls ports endpoint generation).IsAtomic s ports := by
  rw [handleDtls]
  split
  · exact isAtomic_unchanged s ports _
  · split
    · exact isAtomic_unchanged s ports _
    · exact isAtomic_ok s _ ports _ _

theorem isAtomic_close (s : Session) (ports : PortAllocator) :
    (s.close ports).IsAtomic s ports := by
  rw [close]
  split
  · exact isAtomic_unchanged s ports _
  · exact isAtomic_ok s _ ports _ _

/-! ## Every operation -/

/-- **A failed operation changes nothing.** Whatever a session that was built has been through, an
operation that returns an error leaves the whole session and the shared ports exactly as they
were. -/
theorem failed_call_changes_nothing (hs : s.Reachable) (ports : PortAllocator) (c : SessionCall)
    {e : NegotiationError} (h : (s.call ports c).result = .error e) :
    (s.call ports c).session = s ∧ (s.call ports c).ports = ports := by
  have hsound := hs.sound
  cases c with
  | offer => exact (hsound.isAtomic_generateOffer ports).map _ e h
  | answer offer => exact (hsound.isAtomic_processOffer ports offer).map _ e h
  | accept answer => exact (hsound.isAtomic_processAnswer ports answer).map _ e h
  | localCandidate c => exact (isAtomic_addLocalCandidate s ports c).map _ e h
  | remoteCandidate mid index line =>
    exact (isAtomic_addRemoteCandidate s ports mid index line).map _ e h
  | restartIce => exact (isAtomic_restartIce s ports).map _ e h
  | ice endpoint component state generation =>
    exact (isAtomic_handleIce s ports endpoint component state generation).map _ e h
  | dtls endpoint generation => exact (isAtomic_handleDtls s ports endpoint generation).map _ e h
  | close => exact (isAtomic_close s ports).map _ e h

/-- A session with an offer out is given an answer without sections. -/
theorem failed_accept_changes_nothing :
    let s := ((ofChannels ⟨fun i ↦ i, 0⟩).call {} .offer).session
    let c := SessionCall.accept ⟨⟨1, 1, none, []⟩, []⟩
    s.state = .offerGenerated ∧ ∃ e, (s.call {} c).result = .error e ∧
      (s.call {} c).session = s ∧ (s.call {} c).ports = {} := by
  intro s c
  have hs : s.Reachable := .call {} .offer (reachable_ofChannels _)
  have hfail : (s.call {} c).result.isOk = false := by decide +kernel
  cases h : (s.call {} c).result with
  | ok r =>
    rw [h] at hfail
    cases hfail
  | error e => exact ⟨by decide +kernel, e, rfl, failed_call_changes_nothing hs {} c h⟩

end Session

end OfferAnswer
