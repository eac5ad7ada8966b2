import OfferAnswer.Session.State
import OfferAnswer.Session.Describe

/-!
# Making an outcome current

What happens when an exchange has succeeded, whichever side offered. Rejected sections give up
their transport and their source; endpoints that are gone are followed no longer; and every
accepted section gets the remote side's candidates, sources and payload types.

Before that, endpoints are given their secure channels. Everything is checked before the first
endpoint is touched.
-/

namespace OfferAnswer.Session

/-! ## Checking the remote description -/

/-- Two ICE lite agents cannot connect. -/
def checkIceLite (s : Session) (remote : Description) : Except NegotiationError Unit :=
  if s.config.iceLite && remote.session.iceLite then .error (.remote "both peers are ice-lite")
  else .ok ()

/-- A secured section of a remote description must have ICE credentials and, if we have a
certificate, a fingerprint. -/
def checkRemoteParams (s : Session) (remote : Description) (i : Nat) (mid : Mid) :
    Except NegotiationError Unit :=
  if !(remote.sections[i]?.any fun m ↦ isSecure m.proto) then .ok ()
  else if (remote.iceCredentials? i).isNone then
    .error (.remote ("missing ICE credentials for " ++ mid.text))
  else if s.config.certificate.isSome && (remote.fingerprint? i).isNone then
    .error (.remote ("missing a=fingerprint for " ++ mid.text))
  else .ok ()

/-- The error of an inconsistent description. -/
def checkConsistent (remote : Description) : Except NegotiationError Unit :=
  match remote.inconsistency? with
  | some e => .error (.description e.error)
  | none => .ok ()

/-! ## Secure channels -/

/-- The secure channel that an endpoint is to be given. -/
structure Channel where
  endpoint : EndpointId
  /-- What both of its sides get. -/
  side : SecureSide
deriving DecidableEq

/-- The identifier of the secure channel of an endpoint. -/
def channelId (s : Session) (endpoint : EndpointId) : String :=
  Numeral.decimal s.id.toNat ++ "-" ++ Numeral.decimal endpoint

/-- The secure channel for an endpoint with a settled setup; none without a certificate. -/
def prepareChannel (s : Session) (endpoint : EndpointId) (setup : Setup) :
    Except NegotiationError (Option Channel) :=
  match s.config.certificate with
  | none => .ok none
  | some c =>
    match setup.role? with
    | none =>
      .error (.unexpected ("unresolved setup for endpoint " ++ Numeral.decimal endpoint))
    | some role =>
      match s.transport.checkSecure endpoint c.pem (s.channelId endpoint) with
      | .error e => .error e
      | .ok () => .ok (some ⟨endpoint, ⟨role, c.pem, s.channelId endpoint⟩⟩)

/-- The secure channels for endpoints with settled setups. -/
def prepareChannels (s : Session) :
    List (EndpointId × Setup) → Except NegotiationError (List Channel)
  | [] => .ok []
  | (endpoint, setup) :: rest =>
    match s.prepareChannel endpoint setup with
    | .error e => .error e
    | .ok c => (s.prepareChannels rest).map (c.toList ++ ·)

/-- Gives endpoints their secure channels. -/
def applyChannels (b : TransportBinding) :
    List Channel → Except NegotiationError Unit × TransportBinding
  | [] => (.ok (), b)
  | c :: cs =>
    match b.secure c.endpoint c.side with
    | (.error e, b) => (.error e, b)
    | (.ok (), b) => applyChannels b cs

/-! ## Rejected sections -/

/-- Gives up transport and source of the sections that have no endpoint. -/
def releaseRejected (s : Session) (ports : PortAllocator) :
    List NegotiatedMedia → Session × PortAllocator
  | [] => (s, ports)
  | n :: ns =>
    if n.endpoint.isNone then
      let (transport, ports) := s.transport.releaseMid ports n.mid
      ({ s with transport := transport }.dropSsrc n.mid).releaseRejected ports ns
    else s.releaseRejected ports ns

/-- Follows no longer those of some endpoints that are gone. -/
def forgetGone (s : Session) (before : List EndpointId) : Session :=
  { s with
    connection := (before.filter fun id ↦ !s.transport.isAlive id).foldl
      ConnectionMachine.removeEndpoint s.connection }

/-! ## Accepted sections -/

/-- Whether some section has other ICE credentials in a new remote description. -/
def credentialsChanged (last next : Description) : Bool :=
  (List.range (min last.sections.length next.sections.length)).any fun i ↦
    match last.iceCredentials? i, next.iceCredentials? i with
    | some a, some b => a != b
    | _, _ => false

/-- New remote credentials that do not answer a restart of ours mean that the peer restarted. -/
def detectRestart (s : Session) (remote : Description) : Session :=
  if !s.restartPending && s.theirs.any (credentialsChanged · remote) then
    { s with connection := s.connection.restart }
  else s

/-- Adds remote candidates to an endpoint. -/
def addCandidates (b : TransportBinding) (id : EndpointId) (cs : List Candidate) :
    TransportBinding :=
  cs.foldl (fun b c ↦ (b.addRemoteCandidate id c).2) b

/-- The remote sources that were declared for a source of ours and are declared no longer. -/
def staleSsrcs (t : CorrelationTable) (source : Ssrc) (declared : List Ssrc) : List Ssrc :=
  ((t.bindingsTo source).filter fun b ↦
    b.via == .description && !declared.contains b.remote).map (·.remote)

/-- Binds the declared remote sources to a source of ours, and unbinds stale ones. -/
def correlate (t : CorrelationTable) (source : Ssrc) (stale declared : List Ssrc) :
    CorrelationTable :=
  (stale.foldl CorrelationTable.unbind t).bindAll (declared.map fun r ↦ ⟨r, source, .description⟩)

/-- Gives the remote sources and payload types of a section to it. -/
def demultiplex (d : Demux) (mid : Mid) (stale declared : List Ssrc) (types : List PayloadType) :
    Demux :=
  let d := stale.foldl (fun d r ↦ d.removeSsrc r mid) d
  let d := declared.foldl (fun d r ↦ d.addSsrc r mid) d
  types.foldl (fun d pt ↦ d.addType pt mid) d

/-- The payload types among formats. -/
def payloadTypes (formats : List String) : List PayloadType :=
  formats.filterMap fun f ↦ Numeral.readUInt8 f.toList

/-- Registers the remote sources of a media section and the payload types of its answer. -/
def registerMedia (s : Session) (mid : Mid) (endpoint : EndpointId) (remote : Section)
    (formats : List String) : Session :=
  let (source, s) := s.ensureSsrc mid
  let declared := remote.ssrcs
  let stale := staleSsrcs s.correlation source declared
  { s with
    correlation := correlate s.correlation source stale declared
    transport := s.transport.update endpoint fun e ↦
      { e with demux := demultiplex e.demux mid stale declared (payloadTypes formats) } }

/-- Follows an endpoint from now on, unless it is followed. -/
def followEndpoint (s : Session) (endpoint : EndpointId) : Session :=
  if s.connection.hasEndpoint endpoint then s
  else
    let mux := (s.transport.endpoint? endpoint).all (·.rtcpPort.isNone)
    { s with connection := s.connection.addEndpoint endpoint (IceComponent.ofMux mux) }

/-- Registers what the remote side says about an accepted section. -/
def register (s : Session) (n : NegotiatedMedia) (endpoint : EndpointId) (remote : Section)
    (formats : List String) : Session :=
  let s := { s with transport := addCandidates s.transport endpoint remote.candidates }
  let s := if n.kind.isMedia then s.registerMedia n.mid endpoint remote formats else s
  s.followEndpoint endpoint

/-- Registers the accepted sections from an index on. -/
def registerAll (s : Session) (remote answer : Description) : Nat → List NegotiatedMedia → Session
  | _, [] => s
  | i, n :: ns =>
    let s :=
      match n.endpoint, remote.sections[i]? with
      | some endpoint, some m =>
        s.register n endpoint m ((answer.sections[i]?.map Section.formats).getD [])
      | _, _ => s
    s.registerAll remote answer (i + 1) ns

/-! ## The commit -/

/-- Makes an outcome current. -/
def commit (s : Session) (ports : PortAllocator) (remote answer : Description)
    (negotiated : List NegotiatedMedia) (positions : List (Option Nat)) :
    Session × PortAllocator :=
  let before := s.transport.endpoints.map (·.id)
  let (s, ports) := s.releaseRejected ports negotiated
  let s := ((s.forgetGone before).detectRestart remote).registerAll remote answer 0 negotiated
  ({ s with
    restartPending := false
    negotiated := negotiated
    sectionHandlers := positions }, ports)

end OfferAnswer.Session
