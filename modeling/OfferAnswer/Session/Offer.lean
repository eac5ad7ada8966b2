import OfferAnswer.Session.Describe

/-!
# Offering

An offer repeats the sections that are negotiated, each in its place, and appends a section for
every handler that has none yet. A handler that fails makes the whole offer fail and takes
nothing; a section for which no port is left is offered with port 0.
-/

namespace OfferAnswer.Session

/-! ## The plan -/

/-- The identifier of the least index that no section has. -/
def freeMid? (mids : List Mid) : Option Mid :=
  ((List.range (mids.length + 1)).map Mid.ofIndex).find? fun m ↦ !mids.contains m

/-- An identifier that no section has. Indices are used up only by more sections than 16 digits
can count; then a random one must do. -/
def freeMid (s : Session) (mids : List Mid) : Mid :=
  (freeMid? mids).getD (Mid.random s.entropy).1

/-- The section to repeat for a negotiated one. One that was rejected stays rejected. -/
def repeated (s : Session) (n : NegotiatedMedia) (position : Option Nat)
    (previous : Option Section) : Except NegotiationError Section :=
  let offered := if n.rejected then none else s.handler? position
  match offered, previous with
  | some h, _ => h.offer n.kind previous
  | none, some m => .ok (.rejected m)
  | none, none => .ok { kind := n.kind, port := 0, proto := n.proto }

/-- The plan for negotiated sections from an index on. -/
def planRepeated (s : Session) : Nat → List NegotiatedMedia → Except NegotiationError (List Planned)
  | _, [] => .ok []
  | i, n :: ns =>
    let position := (s.sectionHandlers[i]?).join
    match s.repeated n position (s.ours.bind fun d ↦ d.sections[i]?) with
    | .error e => .error e
    | .ok m => (s.planRepeated (i + 1) ns).map (⟨n.mid, position, m⟩ :: ·)

/-- The plan with a section appended for every handler that has none. -/
def planNew (s : Session) :
    List (MediaHandler × Nat) → List Planned → Except NegotiationError (List Planned)
  | [], plan => .ok plan
  | (h, i) :: hs, plan =>
    if s.sectionHandlers.contains (some i) then s.planNew hs plan
    else
      match h.offer h.kind none with
      | .error e => .error e
      | .ok m => s.planNew hs (plan ++ [⟨s.freeMid (plan.map (·.mid)), some i, m⟩])

/-- Offers to share one port with RTCP, if configured and the section is RTP. -/
def offerMux (s : Session) (q : Planned) : Planned :=
  if !q.body.isRejected && s.config.rtcpMux && q.body.kind.isMedia then
    { q with body := q.body.add (.flag "rtcp-mux") }
  else q

/-- The sections of the next offer, before they have ports. -/
def planOffer (s : Session) : Except NegotiationError (List Planned) :=
  match s.planRepeated 0 s.negotiated with
  | .error e => .error e
  | .ok plan => (s.planNew s.handlers.zipIdx plan).map fun plan ↦ plan.map s.offerMux

/-! ## The offer -/

/-- Whether the sections of our offers share a transport. -/
def bundles (s : Session) : Bool := s.config.bundlePolicy == .maxBundle

/-- The setup to write in an offered section: open, if it is secured. -/
def offerSetup (q : Planned) : Option Setup :=
  if isSecure q.body.proto then some .actPass else none

/-- The identifiers of the sections that are not rejected. -/
def acceptedMids (sections : List Section) : List Mid :=
  (sections.filter (!·.isRejected)).filterMap Section.mid?

/-- Writes the offer whose sections have been placed. -/
def writeOffer (s : Session) (placed : List Planned) : Description × Session :=
  let (sections, s) := s.decorateAll (placed.map fun q ↦ (q, offerSetup q))
  let group := if s.bundles then groupAttrs (acceptedMids sections) else []
  let (offer, s) := s.compose (s.sessionAttrs ++ group) sections
  (offer,
    { s with
      ours := some offer
      pending := some ⟨offer, placed.map (·.handler)⟩
      state := .offerGenerated })

def generateOffer (s : Session) (ports : PortAllocator) : Reply Description :=
  if s.state = .closed ∨ s.state = .offerReceived then
    s.unchanged ports (.error (s.wrongState "generate_offer"))
  else
    match s.planOffer with
    | .error e => s.unchanged ports (.error e)
    | .ok plan =>
      let withoutPort (m : Section) : Section := { m with port := 0 }
      match Placement.placeAll s.config.portRange (fun _ ↦ s.bundles)
          (plan.map fun q ↦ (q, withoutPort)) { transport := s.transport, ports := ports } with
      | (.error e, p) =>
        let (transport, ports) := p.undo
        ⟨.error e, { s with transport := transport }, ports⟩
      | (.ok placed, p) =>
        let (offer, s) := { s with transport := p.transport }.writeOffer placed
        ⟨.ok offer, s, p.ports⟩

end OfferAnswer.Session
