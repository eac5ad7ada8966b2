import OfferAnswer.Config.Basic
import OfferAnswer.Connection.Machine
import OfferAnswer.Correlation.Table

/-!
# The state of a session

All that a session remembers between calls: what it was built from, who it is (id, canonical name,
credentials, sources), the descriptions exchanged, the outcome of the last negotiation, and the
three machines it drives — transport, RTCP correlation and connection state.

A section is handled by the handler at a position in `handlers`; `sectionHandlers` gives that
position for every negotiated section.
-/

namespace OfferAnswer

/-- The outcome of the negotiation of one section. -/
structure NegotiatedMedia where
  /-- The identifier of the section. -/
  mid : Mid
  /-- The kind of media. -/
  kind : MediaKind
  /-- The direction as seen from our side. -/
  direction : Direction
  /-- The codec to use, for RTP. -/
  codec : Option Codec
  /-- The transport protocol. -/
  proto : String
  /-- The endpoint that carries it; a rejected section has none. -/
  endpoint : Option EndpointId
  /-- Whether the section was rejected. -/
  rejected : Bool
deriving DecidableEq

/-- The outcome of a section that was rejected. -/
def NegotiatedMedia.refused (mid : Mid) (m : Section) : NegotiatedMedia where
  mid := mid
  kind := m.kind
  direction := .inactive
  codec := none
  proto := m.proto
  endpoint := none
  rejected := true

/-- Our offer while its answer is awaited. -/
structure PendingOffer where
  /-- What was offered. -/
  offer : Description
  /-- The position of the handler of every section. -/
  handlers : List (Option Nat)
deriving DecidableEq

/-- A negotiation with one peer. -/
structure Session where
  /-- The id of the origin line. -/
  id : SessionId
  /-- The version of our last description. -/
  version : UInt64 := 1
  /-- Where the exchange stands. -/
  state : NegotiationState := .new
  /-- What the session was built from. -/
  config : SessionConfig
  /-- The handlers, in the order of our sections. -/
  handlers : List MediaHandler
  /-- Our ICE credentials. -/
  credentials : IceCredentials
  /-- Our candidates, in the order they were added. -/
  candidates : List Candidate := []
  /-- The canonical name of our sources. -/
  cname : String
  /-- Our source in every section that has one. -/
  ssrcs : List (Mid × Ssrc) := []
  /-- Our last description. -/
  ours : Option Description := none
  /-- The last description of the peer. -/
  theirs : Option Description := none
  /-- Our offer, while its answer is awaited. -/
  pending : Option PendingOffer := none
  /-- The outcome of the last negotiation, section by section. -/
  negotiated : List NegotiatedMedia := []
  /-- The position of the handler of every negotiated section. -/
  sectionHandlers : List (Option Nat) := []
  /-- The transport endpoints. -/
  transport : TransportBinding := {}
  /-- The bindings and queues of RTCP. -/
  correlation : CorrelationTable := {}
  /-- The state of the connection. -/
  connection : ConnectionMachine := {}
  /-- Whether we started an ICE restart that is not negotiated yet. -/
  restartPending : Bool := false
  /-- The state to which an established session returns when ICE restarts. -/
  settled : NegotiationState := .new
  /-- Where random values come from. -/
  entropy : Entropy

/-- What a call on a session returns: its result, and session and ports after it. -/
structure Reply (α : Type) where
  result : Except NegotiationError α
  /-- The session after the call. -/
  session : Session
  /-- The shared ports after the call. -/
  ports : PortAllocator

namespace Session

/-- A new session. Credentials are drawn unless they are configured, then the id and the
canonical name. -/
def create (config : SessionConfig) (handlers : List MediaHandler) (e : Entropy) : Session :=
  let (credentials, e) :=
    match config.credentials with
    | some c => (c, e)
    | none => IceCredentials.random e
  let (id, e) := e.sessionId
  let (cname, e) := e.text 16
  { id := id, config := config, handlers := handlers, credentials := credentials, cname := cname,
    entropy := e }

/-- A session built from a configuration, if it is one to build from. -/
def build (config : SessionConfig) (e : Entropy) : Except NegotiationError Session :=
  config.check.map fun handlers ↦ create config handlers e

/-- The error of an operation that has no place in the current state. -/
def wrongState (s : Session) (operation : String) : NegotiationError :=
  .wrongState operation s.state

/-- A reply that leaves everything as it is. -/
def unchanged {α : Type} (s : Session) (ports : PortAllocator)
    (result : Except NegotiationError α) : Reply α :=
  ⟨result, s, ports⟩

/-- The handler at a position. -/
def handler? (s : Session) (position : Option Nat) : Option MediaHandler :=
  position.bind fun i ↦ s.handlers[i]?

/-! ## Our sources -/

/-- Our source in a section, once it has one. -/
def ssrc? (s : Session) (mid : Mid) : Option Ssrc := (s.ssrcs.find? (·.1 == mid)).map (·.2)

/-- Our source in a section; one is drawn if it has none. -/
def ensureSsrc (s : Session) (mid : Mid) : Ssrc × Session :=
  match s.ssrc? mid with
  | some ssrc => (ssrc, s)
  | none =>
    let (ssrc, e) := s.entropy.ssrc
    (ssrc, { s with ssrcs := s.ssrcs ++ [(mid, ssrc)], entropy := e })

/-- Gives up our source in a section and everything bound to it. -/
def dropSsrc (s : Session) (mid : Mid) : Session :=
  match s.ssrc? mid with
  | some ssrc =>
    { s with
      ssrcs := s.ssrcs.filter (·.1 != mid)
      correlation := s.correlation.unbindSource ssrc }
  | none => s

/-! ## Progress -/

/-- An answered session is established once its connection is up. -/
def settle (s : Session) : Session :=
  if (s.state = .answerProcessed ∨ s.state = .answerGenerated) ∧ s.connection.state.isConnected
  then { s with state := .established }
  else s

end Session

end OfferAnswer
