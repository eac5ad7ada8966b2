import OfferAnswer.Proofs.Session.Books

/-!
# Calls between exchanges

Candidates, restarts and events come between one exchange and the next. `Adjusted` is all that such
a call does to a session: it works on where the exchange stands, on what the next description will
say, and on the connection, and it may note a candidate of the peer. Descriptions, outcome, sources
and bindings stay as the last exchange left them.
-/

namespace OfferAnswer.Session

variable {s s' : Session}

/-- What a call between exchanges makes of a session. A session that was closed stays closed. -/
def Adjusted (s s' : Session) : Prop :=
  ∃ state credentials candidates entropy connection restartPending transport,
    s' = { s with
      state := state
      credentials := credentials
      candidates := candidates
      entropy := entropy
      connection := connection
      restartPending := restartPending
      transport := transport } ∧
    (s.state = .closed → state = .closed) ∧
    (transport = s.transport ∨ ∃ id c, transport = (s.transport.addRemoteCandidate id c).2)

theorem Adjusted.refl (s : Session) : Adjusted s s :=
  ⟨_, _, _, _, _, _, _, rfl, fun h ↦ h, .inl rfl⟩

/-- Settling is part of an event that was counted. -/
theorem adjusted_settle (s : Session) (connection : ConnectionMachine) :
    Adjusted s (settle { s with connection := connection }) := by
  obtain ⟨state, hstate, hsettle⟩ := settle_eq { s with connection := connection }
  rw [hsettle]
  refine ⟨state, _, _, _, connection, _, _, rfl, fun hclosed ↦ ?_, .inl rfl⟩
  rcases hstate with hsame | ⟨hopen, -⟩
  · exact hsame.trans hclosed
  · exact absurd hclosed hopen

/-- A trickled candidate goes to one endpoint at most, and nowhere else. -/
theorem session_addRemoteCandidate (s : Session) (ports : PortAllocator) (mid : Option Mid)
    (index : Option Nat) (line : String) : ∃ transport,
      (s.addRemoteCandidate ports mid index line).session = { s with transport := transport } ∧
        (transport = s.transport ∨
          ∃ id c, transport = (s.transport.addRemoteCandidate id c).2) := by
  have hsame : ∃ transport, s = { s with transport := transport } ∧
      (transport = s.transport ∨ ∃ id c, transport = (s.transport.addRemoteCandidate id c).2) :=
    ⟨s.transport, rfl, .inl rfl⟩
  rw [addRemoteCandidate]
  split
  · exact hsame
  · exact hsame
  · split
    · exact hsame
    · exact hsame
    · split
      · exact hsame
      · split
        · exact hsame
        · rw [addCandidateAt]
          split
          · exact hsame
          · split
            · exact hsame
            · exact ⟨_, rfl, .inr ⟨_, _, rfl⟩⟩

theorem adjusted_addRemoteCandidate (s : Session) (ports : PortAllocator) (mid : Option Mid)
    (index : Option Nat) (line : String) :
    Adjusted s (s.addRemoteCandidate ports mid index line).session := by
  obtain ⟨transport, h, htransport⟩ := session_addRemoteCandidate s ports mid index line
  rw [h]
  exact ⟨_, _, _, _, _, _, _, rfl, fun hclosed ↦ hclosed, htransport⟩

theorem adjusted_restartIce (s : Session) (ports : PortAllocator) :
    Adjusted s (s.restartIce ports).session := by
  rw [restartIce]
  split
  · exact .refl s
  · rename_i hmay
    refine ⟨_, _, _, _, _, _, _, rfl, fun hclosed ↦ ?_, .inl rfl⟩
    rw [hclosed] at hmay
    exact absurd rfl hmay

/-- **A call between exchanges adjusts the session** and does nothing else to it. -/
theorem adjusted_call (s : Session) (ports : PortAllocator) {c : SessionCall}
    (hc : c.isBetween = true) : Adjusted s (s.call ports c).session := by
  cases c with
  | localCandidate c =>
    rw [call, Reply.map, addLocalCandidate]
    split
    · exact .refl s
    · split
      · exact .refl s
      · exact ⟨_, _, _, _, _, _, _, rfl, fun h ↦ h, .inl rfl⟩
  | remoteCandidate mid index line => exact adjusted_addRemoteCandidate s ports mid index line
  | restartIce => exact adjusted_restartIce s ports
  | ice endpoint component state generation =>
    rw [call, Reply.map, handleIce]
    split
    · exact .refl s
    · split
      · exact .refl s
      · exact adjusted_settle s _
  | dtls endpoint generation =>
    rw [call, Reply.map, handleDtls]
    split
    · exact .refl s
    · split
      · exact .refl s
      · exact adjusted_settle s _
  | _ => exact Bool.noConfusion hc

end OfferAnswer.Session
