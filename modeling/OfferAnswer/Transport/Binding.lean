import OfferAnswer.Transport.Demux
import OfferAnswer.Transport.Ports

/-!
# Transport endpoints

The endpoints of one session: which local ports carry which sections, and what the secure channel
and the remote side of each are. Sections of a bundle share an endpoint; an endpoint lives as
long as it carries a section.

Ports belong to the allocator, which other sessions share. Operations that take or give back
ports therefore take the allocator and return it, and they keep the two in step: the ports of the
live endpoints are in use.
-/

namespace OfferAnswer

/-- What one side of a secure channel is given. -/
structure SecureSide where
  /-- Our side of the handshake. -/
  role : DtlsRole
  /-- Our certificate in PEM form. -/
  pem : String
  /-- The same for both sides of a channel. -/
  channel : String
deriving DecidableEq, Repr

/-- A local transport that carries one section or several. -/
structure Endpoint where
  /-- Its identifier. -/
  id : EndpointId
  /-- The port of RTP. -/
  rtpPort : UInt16
  /-- The port of RTCP, if it is not that of RTP. -/
  rtcpPort : Option UInt16
  /-- The remote address, once known. -/
  remote : Option SocketAddress := none
  /-- The remote candidates, in order of arrival. -/
  candidates : List Candidate := []
  /-- The encrypting side of the secure channel. -/
  encrypt : Option SecureSide := none
  /-- The decrypting side of the secure channel. -/
  decrypt : Option SecureSide := none
  /-- The sections it carries. -/
  mids : List Mid
  /-- The sections of inbound packets. -/
  demux : Demux := {}
deriving DecidableEq

namespace Endpoint

/-- Whether both sides of the secure channel are set. -/
def isSecured (e : Endpoint) : Bool := e.encrypt.isSome && e.decrypt.isSome

def isBundled (e : Endpoint) : Bool := 1 < e.mids.length

def ports (e : Endpoint) : List UInt16 := e.rtpPort :: e.rtcpPort.toList

/-- Carries a section, too. -/
def carry (e : Endpoint) (mid : Mid) : Endpoint :=
  if e.mids.contains mid then e else { e with mids := e.mids ++ [mid] }

/-- Carries a section no longer. -/
def drop (e : Endpoint) (mid : Mid) : Endpoint :=
  { e with mids := e.mids.filter (· != mid), demux := e.demux.removeMid mid }

/-- Takes a remote candidate. The first one for RTP is where to send to. -/
def takeCandidate (e : Endpoint) (c : Candidate) : Endpoint :=
  { e with
    remote := if e.remote.isNone && c.component == 1 then some c.address else e.remote
    candidates := e.candidates ++ [c] }

end Endpoint

/-- The endpoints of a session. -/
structure TransportBinding where
  /-- The live endpoints, in order of creation. -/
  endpoints : List Endpoint := []
  /-- The identifier of the next endpoint. -/
  nextId : EndpointId := 1
deriving DecidableEq

namespace TransportBinding

/-! ## Looking up -/

def endpoint? (b : TransportBinding) (id : EndpointId) : Option Endpoint :=
  b.endpoints.find? (·.id == id)

def isAlive (b : TransportBinding) (id : EndpointId) : Bool := (b.endpoint? id).isSome

/-- The endpoint that carries a section. -/
def carrier? (b : TransportBinding) (mid : Mid) : Option EndpointId :=
  (b.endpoints.find? (·.mids.contains mid)).map (·.id)

/-- Changes a live endpoint. -/
def update (b : TransportBinding) (id : EndpointId) (f : Endpoint → Endpoint) :
    TransportBinding :=
  { b with endpoints := b.endpoints.map fun e ↦ if e.id = id then f e else e }

/-! ## Taking ports -/

/-- A section needs a port for RTCP if it is RTP and RTCP does not share the port. -/
def needsRtcpPort (m : Section) : Bool := !m.rtcpMux && m.kind.isMedia

/-- Takes a port for RTP and, if needed, another for RTCP. If the second is not to be had, the
first is given back. -/
def takePorts (ports : PortAllocator) (range : PortRange) (both : Bool) :
    Except NegotiationError (UInt16 × Option UInt16) × PortAllocator :=
  match ports.allocate range with
  | (.error e, ports) => (.error e, ports)
  | (.ok rtp, ports) =>
    if both then
      match ports.allocate range with
      | (.error e, ports) => (.error e, ports.release rtp)
      | (.ok rtcp, ports) => (.ok (rtp, some rtcp), ports)
    else (.ok (rtp, none), ports)

/-- Creates an endpoint with given ports that carries a section. -/
def create (b : TransportBinding) (mid : Mid) (rtp : UInt16) (rtcp : Option UInt16) :
    TransportBinding where
  endpoints := b.endpoints ++ [{ id := b.nextId, rtpPort := rtp, rtcpPort := rtcp, mids := [mid] }]
  nextId := b.nextId + 1

/-- Finds an endpoint for a section: the one it is to be bundled with, or a new one. -/
def allocate (b : TransportBinding) (ports : PortAllocator) (mid : Mid) (m : Section)
    (range : PortRange) (bundleWith : Option EndpointId) :
    Except NegotiationError EndpointId × TransportBinding × PortAllocator :=
  match bundleWith with
  | some id =>
    if b.isAlive id then (.ok id, b.update id (·.carry mid), ports)
    else (.error (.unexpected ("bundle endpoint " ++ Numeral.decimal id ++ " is gone")), b, ports)
  | none =>
    match takePorts ports range (needsRtcpPort m) with
    | (.error e, ports) => (.error e, b, ports)
    | (.ok (rtp, rtcp), ports) => (.ok b.nextId, b.create mid rtp rtcp, ports)

/-! ## Giving ports back -/

/-- Gives back the ports of an endpoint. -/
def releasePorts (ports : PortAllocator) (e : Endpoint) : PortAllocator :=
  e.ports.foldl PortAllocator.release ports

/-- Tears an endpoint down. Says whether it was live. -/
def teardown (b : TransportBinding) (ports : PortAllocator) (id : EndpointId) :
    Bool × TransportBinding × PortAllocator :=
  match b.endpoint? id with
  | none => (false, b, ports)
  | some e =>
    (true, { b with endpoints := b.endpoints.filter (·.id != id) }, releasePorts ports e)

/-- Carries a section no longer, and tears its endpoint down if that was the last one. -/
def releaseMid (b : TransportBinding) (ports : PortAllocator) (mid : Mid) :
    TransportBinding × PortAllocator :=
  match b.carrier? mid with
  | none => (b, ports)
  | some id =>
    let b := b.update id (·.drop mid)
    if (b.endpoint? id).any (·.mids.isEmpty) then (b.teardown ports id).2 else (b, ports)

/-- Carries several sections no longer. -/
def releaseMids (b : TransportBinding) (ports : PortAllocator) :
    List Mid → TransportBinding × PortAllocator
  | [] => (b, ports)
  | mid :: mids =>
    let (b, ports) := b.releaseMid ports mid
    b.releaseMids ports mids

def teardownAll (b : TransportBinding) (ports : PortAllocator) :
    TransportBinding × PortAllocator :=
  ({ b with endpoints := [] }, b.endpoints.foldl releasePorts ports)

/-! ## Channels and remote addresses -/

/-- Whether a text holds a PEM header. -/
def isPem (s : String) : Bool := Text.contains s "-----BEGIN"

/-- Whether an endpoint can be given a secure channel. -/
def checkSecure (b : TransportBinding) (id : EndpointId) (pem channel : String) :
    Except NegotiationError Unit :=
  if !isPem pem then .error (.invalidParameter "certificate is not PEM encoded")
  else if channel.isEmpty then .error (.invalidParameter "empty secure channel id")
  else if !b.isAlive id then .error (.invalidParameter ("no endpoint " ++ Numeral.decimal id))
  else .ok ()

/-- Gives both sides of an endpoint the same secure channel. -/
def setSecure (b : TransportBinding) (id : EndpointId) (side : SecureSide) : TransportBinding :=
  b.update id fun e ↦ { e with encrypt := some side, decrypt := some side }

/-- Gives an endpoint a secure channel, if it can have one. -/
def secure (b : TransportBinding) (id : EndpointId) (side : SecureSide) :
    Except NegotiationError Unit × TransportBinding :=
  match b.checkSecure id side.pem side.channel with
  | .error e => (.error e, b)
  | .ok () => (.ok (), b.setSecure id side)

def setRemote (b : TransportBinding) (id : EndpointId) (address : SocketAddress) :
    TransportBinding :=
  b.update id fun e ↦ { e with remote := some address }

/-- Adds a remote candidate to an endpoint. Says whether it is live and the candidate new. -/
def addRemoteCandidate (b : TransportBinding) (id : EndpointId) (c : Candidate) :
    Bool × TransportBinding :=
  match b.endpoint? id with
  | none => (false, b)
  | some e =>
    if e.candidates.contains c then (false, b) else (true, b.update id (·.takeCandidate c))

end TransportBinding

end OfferAnswer
