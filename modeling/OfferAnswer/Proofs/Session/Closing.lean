import OfferAnswer.Proofs.Correlation.History
import OfferAnswer.Proofs.Session.Phases
import OfferAnswer.Proofs.Transport.Fleet

/-!
# Closing is final

Closing shuts four things at once: the exchange, the endpoints, the connection and the correlation
table. Each of them is reached by events of its own, which know nothing of the session being closed.
The table above all is shared: whoever receives RTCP has it, binds sources and takes buffers.

Closing is final because a session that is shut is a fixed point. No operation on the session and
none on the table moves it (`Shut.after_eq`), so whatever follows, the session in the end is the one
that was closed. What every operation returns is then read off that one session.
-/

namespace OfferAnswer

/-! ## The ports -/

namespace TransportBinding

/-- Tearing everything down gives back the ports that are held, and no other. -/
theorem used_teardownAll (b : TransportBinding) (a : PortAllocator) :
    (b.teardownAll a).2.used = a.used.filter (· ∉ b.heldPorts) := by
  have hall : (b.teardownAll a).2 = b.heldPorts.foldl PortAllocator.release a := by
    rw [heldPorts, List.foldl_flatMap]
    rfl
  rw [hall, PortAllocator.used_releaseAll]

end TransportBinding

/-! ## The table -/

namespace CorrelationTable

variable {t t' : CorrelationTable}

/-- A table that is closed and empty. -/
structure Shut (t : CorrelationTable) : Prop where
  /-- It is closed. -/
  closed_eq : t.closed = true
  /-- It has no binding. -/
  bindings_eq : t.bindings = []
  /-- It has no channel. -/
  channels_eq : t.channels = []
  /-- No buffer waits in passing. -/
  passthrough_eq : t.passthrough = []

theorem shut_close (t : CorrelationTable) : t.close.Shut := ⟨rfl, rfl, rfl, rfl⟩

/-- Two tables that are shut differ at most in what they announced before. -/
theorem Shut.eq_of_announced (h : t.Shut) (h' : t'.Shut) (hannounced : t'.announced = t.announced) :
    t' = t := by
  cases t
  cases t'
  obtain ⟨rfl, rfl, rfl, rfl⟩ := h
  obtain ⟨rfl, rfl, rfl, rfl⟩ := h'
  obtain rfl := hannounced
  rfl

theorem Shut.canBind_eq (h : t.Shut) (remote : Ssrc) : t.canBind remote = false := by
  rw [canBind, h.closed_eq]
  rfl

theorem Shut.bind_eq (h : t.Shut) (b : SsrcBinding) : t.bind b = t := by
  rw [bind, h.canBind_eq, if_neg Bool.false_ne_true]

/-- **No call moves a table that is shut.** -/
theorem Shut.call_eq (h : t.Shut) (c : Call) : t.call c = t := by
  cases c with
  | bind b => exact h.bind_eq b
  | unbind remote =>
    refine h.eq_of_announced ⟨h.closed_eq, ?_, h.channels_eq, h.passthrough_eq⟩ rfl
    exact List.filter_eq_nil_iff.mpr fun b hb ↦ absurd hb (h.bindings_eq ▸ List.not_mem_nil)
  | unbindSource source =>
    refine h.eq_of_announced ⟨h.closed_eq, ?_, ?_, h.passthrough_eq⟩ rfl
    · exact List.filter_eq_nil_iff.mpr fun b hb ↦ absurd hb (h.bindings_eq ▸ List.not_mem_nil)
    · exact List.filter_eq_nil_iff.mpr fun c hc ↦ absurd hc (h.channels_eq ▸ List.not_mem_nil)
  | close => exact h.eq_of_announced t.shut_close rfl
  | rtcp listener buffer => exact congrArg Prod.snd (route_of_closed h.closed_eq listener buffer)

theorem Shut.setQueue_eq (h : t.Shut) (source : Ssrc) (queue : List Bytes) :
    t.setQueue source queue = t := by
  refine h.eq_of_announced ⟨h.closed_eq, h.bindings_eq, ?_, h.passthrough_eq⟩ rfl
  exact List.map_eq_nil_iff.mpr h.channels_eq

end CorrelationTable

/-! ## The session -/

/-- The name that the errors of an operation give it. -/
def SessionCall.operation : SessionCall → String
  | .offer => "generate_offer"
  | .answer _ => "process_offer"
  | .accept _ => "process_answer"
  | .localCandidate _ => "add_local_candidate"
  | .remoteCandidate _ _ _ => "add_remote_candidate"
  | .restartIce => "restart_ice"
  | .ice _ _ _ _ => "handle_ice_state"
  | .dtls _ _ => "handle_dtls_connected"
  | .close => "close"

namespace Session

variable {s : Session}

/-- What can be asked of a session and of its table, which others have, too. -/
inductive Event where
  /-- An operation is called, with some ports in use by then. -/
  | call (ports : PortAllocator) (c : SessionCall)
  /-- The table is called. -/
  | table (c : CorrelationTable.Call)
  /-- The oldest buffer for one of our sources is taken. -/
  | pop (source : Ssrc)
  /-- All buffers for one of our sources are taken. -/
  | drain (source : Ssrc)
  /-- The oldest buffer in passing is taken. -/
  | popPassthrough
  /-- All buffers in passing are taken. -/
  | drainPassthrough

/-- The session after an event. -/
def after (s : Session) : Event → Session
  | .call ports c => (s.call ports c).session
  | .table c => { s with correlation := s.correlation.call c }
  | .pop source => { s with correlation := (s.correlation.pop source).2 }
  | .drain source => { s with correlation := (s.correlation.drain source).2 }
  | .popPassthrough => { s with correlation := s.correlation.popPassthrough.2 }
  | .drainPassthrough => { s with correlation := s.correlation.drainPassthrough.2 }

/-- A session that is closed in all its parts. -/
structure Shut (s : Session) : Prop where
  /-- The exchange is over. -/
  state_eq : s.state = .closed
  /-- The connection is closed. -/
  connection_eq : s.connection.state = .closed
  /-- No endpoint is left. -/
  no_endpoints : s.transport.endpoints = []
  /-- The table is shut. -/
  table : s.correlation.Shut

theorem closedError?_of_closed (h : s.state = .closed) (operation : String) :
    s.closedError? operation = some (.wrongState operation .closed) := by
  rw [closedError?, if_pos h, wrongState, h]

/-- **A closed session refuses every operation**, and each of them changes nothing. -/
theorem call_of_closed (h : s.state = .closed) (ports : PortAllocator) (c : SessionCall) :
    s.call ports c = s.unchanged ports (.error (.wrongState c.operation .closed)) := by
  have herror (operation : String) : s.wrongState operation = .wrongState operation .closed := by
    rw [wrongState, h]
  cases c with
  | offer =>
    rw [call, generateOffer, if_pos (.inl h), herror]
    rfl
  | answer remote =>
    rw [call, processOffer, h, herror]
    rfl
  | accept answer =>
    rw [call, processAnswer]
    -- only a session with an offer out would take the answer
    split
    · rename_i hstate _
      exact NegotiationState.noConfusion (h.symm.trans hstate)
    · rw [herror]
      rfl
  | localCandidate c =>
    rw [call, addLocalCandidate, closedError?_of_closed h]
    rfl
  | remoteCandidate mid index line =>
    rw [call, addRemoteCandidate, closedError?_of_closed h]
    rfl
  | restartIce =>
    rw [call, restartIce, h, herror]
    rfl
  | ice endpoint component state generation =>
    rw [call, handleIce, closedError?_of_closed h]
    rfl
  | dtls endpoint generation =>
    rw [call, handleDtls, closedError?_of_closed h]
    rfl
  | close =>
    rw [call, close, closedError?_of_closed h]
    rfl

theorem Shut.after_eq (h : s.Shut) (e : Event) : s.after e = s := by
  have htable {t : CorrelationTable} (ht : t = s.correlation) :
      { s with correlation := t } = s := by rw [ht]
  cases e with
  | call ports c => exact congrArg Reply.session (call_of_closed h.state_eq ports c)
  | table c => exact htable (h.table.call_eq c)
  | pop source => exact htable (h.table.setQueue_eq source _)
  | drain source => exact htable (h.table.setQueue_eq source [])
  | popPassthrough =>
    refine htable (h.table.eq_of_announced ⟨h.table.closed_eq, h.table.bindings_eq,
      h.table.channels_eq, ?_⟩ rfl)
    exact congrArg List.tail h.table.passthrough_eq
  | drainPassthrough =>
    exact htable (h.table.eq_of_announced ⟨h.table.closed_eq, h.table.bindings_eq,
      h.table.channels_eq, rfl⟩ rfl)

theorem Shut.foldl_after_eq (h : s.Shut) (history : List Event) : history.foldl after s = s := by
  induction history with
  | nil => rfl
  | cons e history ih => rw [List.foldl_cons, h.after_eq, ih]

theorem close_of_open (hopen : s.state ≠ .closed) (ports : PortAllocator) :
    (s.close ports).result = .ok () ∧ (s.close ports).session.Shut ∧
      (s.close ports).ports.used = ports.used.filter (· ∉ s.transport.heldPorts) := by
  rw [close, show s.closedError? "close" = none from if_neg hopen]
  exact ⟨rfl, ⟨rfl, ConnectionMachine.state_moveTo _ _, rfl, s.correlation.shut_close⟩,
    s.transport.used_teardownAll ports⟩

/-- **Closing is final and complete.** It succeeds for every session that is not closed, gives back
the ports of the endpoints of the session and no other, and leaves no endpoint. Whatever is asked
of the session or of its table after that: every operation fails for the wrong state and changes
nothing, the connection stays closed, the table takes no binding and drops every buffer, and it
holds neither bindings nor channels nor buffers. -/
theorem closing_is_final (hopen : s.state ≠ .closed) (ports : PortAllocator) :
    (s.close ports).result = .ok () ∧ (s.close ports).session.transport.endpoints = [] ∧
      (s.close ports).ports.used = ports.used.filter (· ∉ s.transport.heldPorts) ∧
      ∀ history : List Event, let s' := history.foldl after (s.close ports).session
        (∀ ports c, s'.call ports c =
          s'.unchanged ports (.error (.wrongState c.operation .closed))) ∧
        s'.connection.state = .closed ∧
        (∀ b, s'.correlation.canBind b.remote = false ∧ s'.correlation.bind b = s'.correlation) ∧
        (∀ listener buffer, s'.correlation.route listener buffer = (.dropped, s'.correlation)) ∧
        s'.correlation.bindings = [] ∧ s'.correlation.channels = [] ∧
        s'.correlation.passthrough = [] := by
  obtain ⟨hok, hshut, hports⟩ := close_of_open hopen ports
  refine ⟨hok, hshut.no_endpoints, hports, fun history ↦ ?_⟩
  rw [hshut.foldl_after_eq history]
  have htable := hshut.table
  exact ⟨call_of_closed hshut.state_eq, hshut.connection_eq,
    fun b ↦ ⟨htable.canBind_eq b.remote, htable.bind_eq b⟩,
    CorrelationTable.route_of_closed htable.closed_eq, htable.bindings_eq, htable.channels_eq,
    htable.passthrough_eq⟩

/-- A session with one endpoint closes beside another that holds port 9. -/
theorem closing_is_final_beside_another :
    let first := (ofChannels ⟨fun i ↦ i, 0⟩).call { used := [9] } (.answer mixedOffer)
    let last := first.session.close first.ports
    first.session.state ≠ .closed ∧ first.ports.used = [9, 10000] ∧ last.result = .ok () ∧
      last.ports.used = [9] ∧ ∀ history : List Event,
        let s' := history.foldl after last.session
        s'.call {} .offer = s'.unchanged {} (.error (.wrongState "generate_offer" .closed)) ∧
          s'.connection.state = .closed ∧ s'.correlation.bindings = [] := by
  intro first last
  have hopen : first.session.state ≠ .closed := by decide +kernel
  have hports : first.ports.used = [9, 10000] := by decide +kernel
  have hheld : first.session.transport.heldPorts = [10000] := by decide +kernel
  obtain ⟨hok, -, hused, hlater⟩ := closing_is_final hopen first.ports
  refine ⟨hopen, hports, hok, ?_, fun history ↦ ?_⟩
  · rw [hports, hheld] at hused
    exact hused
  · obtain ⟨hcalls, hconnection, -, -, hbindings, -⟩ := hlater history
    exact ⟨hcalls {} .offer, hconnection, hbindings⟩

end Session

end OfferAnswer
