import OfferAnswer.Session.State

/-!
# Writing our descriptions

What offers and answers have in common: finding an endpoint for every section, adding to a section
what belongs to the session rather than to its handler, and putting sections into a description.

The version of a description moves on only when something else in it changes, so that repeating an
offer repeats the very text.
-/

namespace OfferAnswer

/-- A section on its way into a description. -/
structure Planned where
  /-- Its identifier. -/
  mid : Mid
  /-- The position of its handler. -/
  handler : Option Nat
  /-- The section as it stands. -/
  body : Section
deriving DecidableEq

/-! ## Endpoints -/

/-- Transport and ports while sections are placed. -/
structure Placement where
  /-- The endpoints. -/
  transport : TransportBinding
  /-- The shared ports. -/
  ports : PortAllocator
  /-- The endpoint of the bundle, once a section of it is placed. -/
  shared : Option EndpointId := none
  /-- The sections that were not carried before. -/
  fresh : List Mid := []

namespace Placement

/-- Writes the ports of an endpoint into a section. -/
def writePorts (e : Endpoint) (m : Section) : Section :=
  match e.rtcpPort with
  | some p => { m with port := e.rtpPort }.add (.of "rtcp" (Numeral.decimal p.toNat))
  | none => { m with port := e.rtpPort }.remove "rtcp"

/-- Writes the ports of a live endpoint into a section. -/
def applyPorts (b : TransportBinding) (id : EndpointId) (m : Section) : Section :=
  match b.endpoint? id with
  | some e => writePorts e m
  | none => m

/-- Remembers the endpoint of a placed section. -/
def settle (p : Placement) (bundled : Bool) (id : EndpointId) : Placement :=
  if bundled && p.shared.isNone then { p with shared := some id } else p

/-- Finds an endpoint for a section: the one that carries it, or that of its bundle, or a new
one. -/
def place (range : PortRange) (bundled : Bool) (mid : Mid) (m : Section) (p : Placement) :
    Except NegotiationError Section × Placement :=
  match p.transport.carrier? mid with
  | some id => (.ok (applyPorts p.transport id m), p.settle bundled id)
  | none =>
    match p.transport.allocate p.ports mid m range (if bundled then p.shared else none) with
    | (.error e, transport, ports) => (.error e, { p with transport := transport, ports := ports })
    | (.ok id, transport, ports) =>
      (.ok (applyPorts transport id m),
        { p with transport := transport, ports := ports, fresh := p.fresh ++ [mid] }.settle
          bundled id)

/-- Places a planned section, unless it is rejected. One for which no port is left is replaced by
what `refuse` makes of it. -/
def placeOne (range : PortRange) (isBundled : Mid → Bool) (refuse : Section → Section) (q : Planned)
    (p : Placement) : Except NegotiationError Planned × Placement :=
  if q.body.isRejected then (.ok q, p)
  else
    match place range (isBundled q.mid) q.mid q.body p with
    | (.ok m, p) => (.ok { q with body := m }, p)
    | (.error (.noPorts _ _), p) => (.ok { q with body := refuse q.body }, p)
    | (.error e, p) => (.error e, p)

/-- Places planned sections in order, each with what becomes of it without a port. Any error other
than the lack of ports ends the attempt. -/
def placeAll (range : PortRange) (isBundled : Mid → Bool) :
    List (Planned × (Section → Section)) → Placement →
      Except NegotiationError (List Planned) × Placement
  | [], p => (.ok [], p)
  | (q, refuse) :: qs, p =>
    match placeOne range isBundled refuse q p with
    | (.error e, p) => (.error e, p)
    | (.ok q, p) =>
      match placeAll range isBundled qs p with
      | (.error e, p) => (.error e, p)
      | (.ok placed, p) => (.ok (q :: placed), p)

/-- Takes back what was placed. -/
def undo (p : Placement) : TransportBinding × PortAllocator :=
  p.transport.releaseMids p.ports p.fresh

end Placement

namespace Session

/-! ## Sections -/

/-- Whether a protocol is secured by DTLS. -/
def isSecure (proto : String) : Bool := Text.contains proto "TLS"

/-- The value of the connection line for an address. -/
def connectionValue (ip : IpAddress) : String :=
  match ip with
  | .v4 _ => "IN IP4 " ++ ip.text
  | .v6 _ => "IN IP6 " ++ ip.text

/-- The attribute that names a section. -/
def midAttr (mid : Mid) : Attribute := .of "mid" mid.text

/-- The ICE attributes of an accepted section. -/
def iceAttrs (s : Session) : List Attribute :=
  [.of "ice-ufrag" s.credentials.ufrag, .of "ice-pwd" s.credentials.password,
    .of "ice-options" "trickle"]

/-- The DTLS attributes of an accepted section that is secured. -/
def dtlsAttrs (s : Session) : Option Setup → List Attribute
  | some setup =>
    (s.config.certificate.map fun c ↦ .of "fingerprint" c.fingerprint.text).toList ++
      [.of "setup" setup.text]
  | none => []

def ssrcAttr (s : Session) (ssrc : Ssrc) : Attribute :=
  .of "ssrc" (Numeral.decimal ssrc.toNat ++ " cname:" ++ s.cname)

/-- The attribute of a candidate of ours. -/
def candidateAttr (c : Candidate) : Attribute :=
  .of "candidate" ((Text.dropLead? c.text "candidate:").getD c.text)

/-- Adds the source of a section. A media section has one from its first description on, and
declares it if it sends. -/
def addSource (s : Session) (mid : Mid) (m : Section) : Section × Session :=
  if m.kind.isMedia then
    let (ssrc, s) := s.ensureSsrc mid
    (if m.direction.isSending then m.add (s.ssrcAttr ssrc) else m, s)
  else (m, s)

/-- Adds what belongs to the session rather than to the handler. A rejected section only gets its
identifier. -/
def decorate (s : Session) (mid : Mid) (setup : Option Setup) (m : Section) : Section × Session :=
  let m := m.add (midAttr mid)
  if m.isRejected then (m, s)
  else
    let m := { m with connection := some (connectionValue s.config.connectionAddress) }
    let m := (m.addAll s.iceAttrs).addAll (s.dtlsAttrs setup)
    let (m, s) := s.addSource mid m
    (m.addAll (s.candidates.map candidateAttr), s)

/-- Decorates sections in order, each with the setup that is given for it. -/
def decorateAll (s : Session) : List (Planned × Option Setup) → List Section × Session
  | [] => ([], s)
  | (q, setup) :: qs =>
    let (m, s) := s.decorate q.mid setup q.body
    let (ms, s) := s.decorateAll qs
    (m :: ms, s)

/-! ## Descriptions -/

/-- The attributes of the session part. -/
def sessionAttrs (s : Session) : List Attribute :=
  if s.config.iceLite then [.flag "ice-lite"] else []

/-- The attribute of a bundle group; an empty one is not written. -/
def groupAttrs (mids : List Mid) : List Attribute :=
  if mids.isEmpty then []
  else [.of "group" ("BUNDLE " ++ Text.join " " (mids.map Mid.text))]

/-- A description of ours in a version. -/
def draft (s : Session) (version : UInt64) (attrs : List Attribute) (sections : List Section) :
    Description :=
  ⟨⟨s.id, version, none, attrs⟩, sections⟩

/-- The version of the next description: one more than that of the last, if anything else in it
is new. -/
def nextVersion (s : Session) (attrs : List Attribute) (sections : List Section) : UInt64 :=
  match s.ours with
  | some last =>
    if s.draft last.session.version attrs sections = last then s.version
    else last.session.version + 1
  | none => s.version

/-- Puts sections into a description of the next version. -/
def compose (s : Session) (attrs : List Attribute) (sections : List Section) :
    Description × Session :=
  let version := s.nextVersion attrs sections
  (s.draft version attrs sections, { s with version := version })

end Session

end OfferAnswer
