import OfferAnswer.Session.Commit

/-!
# Candidates, restarts and events

What happens to a session between negotiations: candidates trickle in on both sides, ICE restarts,
components and handshakes report, and in the end the session is closed.
-/

namespace OfferAnswer.Session

/-- The error of a closed session, if it is closed. -/
def closedError? (s : Session) (operation : String) : Option NegotiationError :=
  if s.state = .closed then some (s.wrongState operation) else none

/-! ## Candidates -/

/-- Adds a candidate of ours. Says whether it is new. -/
def addLocalCandidate (s : Session) (ports : PortAllocator) (c : Candidate) : Reply Bool :=
  match s.closedError? "add_local_candidate" with
  | some e => s.unchanged ports (.error e)
  | none =>
    if s.candidates.contains c then s.unchanged ports (.ok false)
    else ⟨.ok true, { s with candidates := s.candidates ++ [c] }, ports⟩

/-- What a trickled line says. -/
inductive Trickle where
  /-- There are no more candidates. -/
  | done
  | candidate (c : Candidate)
  /-- Nothing that can be read. -/
  | unreadable

/-- Reads a trickled line, with or without `a=` and `candidate:` in front. -/
def readTrickle (line : String) : Trickle :=
  let cs := Text.trim line.toList
  let cs := (Text.stripLead "a=".toList cs).getD cs
  if cs = [] ∨ cs = "end-of-candidates".toList then .done
  else
    let cs := if "candidate:".toList.isPrefixOf cs then cs else "candidate:".toList ++ cs
    match Candidate.ofText? (String.ofList cs) with
    | some c => .candidate c
    | none => .unreadable

/-- The index of the section that a trickled candidate is for: its identifier decides, and without
one the given index. -/
def trickleIndex? (s : Session) (mid : Option Mid) (index : Option Nat) : Option Nat :=
  match mid, index with
  | some mid, _ => s.negotiated.findIdx? (·.mid == mid)
  | none, some i => if i < s.negotiated.length then some i else none
  | none, none => none

/-- An option as error texts show it. -/
def shownOption : Option String → String
  | some s => "Some(" ++ s ++ ")"
  | none => "None"

/-- The error of a candidate for no section. -/
def noSectionError (mid : Option Mid) (index : Option Nat) : NegotiationError :=
  .invalidParameter ("no section for candidate (mid: " ++ shownOption (mid.map Mid.shown) ++
    ", index: " ++ shownOption (index.map Numeral.decimal) ++ ")")

/-- Whether a candidate belongs to other credentials than a section has now. -/
def isOutdated (c : Candidate) (credentials : Option IceCredentials) : Bool :=
  match c.ufrag, credentials with
  | some ufrag, some credentials => ufrag != credentials.ufrag
  | _, _ => false

/-- Adds a remote candidate to the endpoint of the section at an index. -/
def addCandidateAt (s : Session) (ports : PortAllocator) (remote : Description) (c : Candidate)
    (i : Nat) (n : NegotiatedMedia) : Reply Bool :=
  match n.endpoint with
  | none =>
    s.unchanged ports (.error (.invalidParameter ("section " ++ n.mid.text ++ " is rejected")))
  | some endpoint =>
    if isOutdated c (remote.iceCredentials? i) then s.unchanged ports (.ok false)
    else
      let (new, transport) := s.transport.addRemoteCandidate endpoint c
      ⟨.ok new, { s with transport := transport }, ports⟩

/-- Adds a trickled remote candidate. Says whether it is new. -/
def addRemoteCandidate (s : Session) (ports : PortAllocator) (mid : Option Mid)
    (index : Option Nat) (line : String) : Reply Bool :=
  match s.closedError? "add_remote_candidate", s.theirs with
  | some e, _ => s.unchanged ports (.error e)
  | none, none => s.unchanged ports (.error (s.wrongState "add_remote_candidate"))
  | none, some remote =>
    match readTrickle line with
    | .done => s.unchanged ports (.ok false)
    | .unreadable => s.unchanged ports (.error (.description (.unreadable "candidate")))
    | .candidate c =>
      match s.trickleIndex? mid index with
      | none => s.unchanged ports (.error (noSectionError mid index))
      | some i =>
        match s.negotiated[i]? with
        | none => s.unchanged ports (.error (noSectionError mid index))
        | some n => s.addCandidateAt ports remote c i n

/-! ## Restarts -/

/-- Whether ICE may restart in a state. -/
def mayRestart : NegotiationState → Bool
  | .closed | .offerGenerated | .offerReceived => false
  | _ => true

/-- Restarts ICE with new credentials, for the next description to carry. Returns the new
generation. -/
def restartIce (s : Session) (ports : PortAllocator) : Reply Nat :=
  if !mayRestart s.state then s.unchanged ports (.error (s.wrongState "restart_ice"))
  else
    let (credentials, e) := IceCredentials.random s.entropy
    let connection := s.connection.restart
    ⟨.ok connection.generation,
      { s with
        credentials := credentials
        entropy := e
        restartPending := true
        connection := connection
        state := if s.state = .established then s.settled else s.state },
      ports⟩

/-! ## Events -/

/-- A component of an endpoint changed its state. Says whether the event counted. -/
def handleIce (s : Session) (ports : PortAllocator) (endpoint : EndpointId)
    (component : IceComponent) (state : IceState) (generation : Nat) : Reply Bool :=
  match s.closedError? "handle_ice_state" with
  | some e => s.unchanged ports (.error e)
  | none =>
    if !s.transport.isAlive endpoint then s.unchanged ports (.ok false)
    else
      let (counted, connection) := s.connection.handleIce endpoint component state generation
      ⟨.ok counted, settle { s with connection := connection }, ports⟩

/-- The DTLS handshake of an endpoint completed. Says whether the event counted. -/
def handleDtls (s : Session) (ports : PortAllocator) (endpoint : EndpointId) (generation : Nat) :
    Reply Bool :=
  match s.closedError? "handle_dtls_connected" with
  | some e => s.unchanged ports (.error e)
  | none =>
    if !s.transport.isAlive endpoint then s.unchanged ports (.ok false)
    else
      let (counted, connection) := s.connection.handleDtls endpoint generation
      ⟨.ok counted, settle { s with connection := connection }, ports⟩

/-- An RTCP buffer arrived. -/
def handleRtcp (s : Session) (buffer : Bytes) : RtcpOutcome × Session :=
  let (outcome, table) := s.correlation.route CorrelationTable.noListener buffer
  (outcome, { s with correlation := table })

/-! ## The end -/

/-- Tears every endpoint down and closes the session for good. -/
def close (s : Session) (ports : PortAllocator) : Reply Unit :=
  match s.closedError? "close" with
  | some e => s.unchanged ports (.error e)
  | none =>
    let (transport, ports) := s.transport.teardownAll ports
    ⟨.ok (),
      { s with
        transport := transport
        correlation := s.correlation.close
        connection := s.connection.close
        pending := none
        negotiated := s.negotiated.map fun n ↦ { n with endpoint := none }
        state := .closed },
      ports⟩

end OfferAnswer.Session
