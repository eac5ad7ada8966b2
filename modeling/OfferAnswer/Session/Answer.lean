import OfferAnswer.Session.Commit

/-!
# Answering

A remote offer is answered section by section, each in its place. A section that no handler takes,
that its handler rejects, or for which no port is left is rejected; anything wrong with the offer
as a whole fails the call and leaves the session as it was.

A section is bundled if the offer bundles it; all bundled sections share the endpoint of the first
one that is accepted.
-/

namespace OfferAnswer.Session

/-! ## Checking the offer -/

/-- The identifier of a section of a remote description. -/
def midAt (remote : Description) (i : Nat) : Mid := (remote.midOf? i).getD (Mid.ofIndex i)

/-- Every negotiated section must be there again, with its identifier. -/
def checkMids (remote : Description) : Nat → List NegotiatedMedia → Except NegotiationError Unit
  | _, [] => .ok ()
  | i, n :: ns =>
    if midAt remote i = n.mid then checkMids remote (i + 1) ns
    else
      .error (.remote ("m-line " ++ Numeral.decimal i ++ " changed mid from " ++ n.mid.text))

/-- The checks of an offer as a whole. -/
def checkOffer (s : Session) (remote : Description) : Except NegotiationError Unit := do
  checkConsistent remote
  s.checkIceLite remote
  if remote.sections.length < s.negotiated.length then
    .error (.remote ("offer has " ++ Numeral.decimal remote.sections.length ++
      " m-lines, previously " ++ Numeral.decimal s.negotiated.length))
  checkMids remote 0 s.negotiated

/-! ## The plan -/

/-- The position of the handler of an offered section. -/
def handlerFor? (s : Session) (m : Section) : Option Nat := s.handlers.findIdx? (·.takes m)

/-- The answer to an offered section, before it has a port. -/
def planAnswer (s : Session) (remote : Description) (i : Nat) (m : Section) :
    Except NegotiationError Planned :=
  let mid := midAt remote i
  if m.isRejected then .ok ⟨mid, none, .rejected m⟩
  else
    match s.handlerFor? m with
    | none => .ok ⟨mid, none, .rejected m⟩
    | some position =>
      match s.handler? position with
      | none => .ok ⟨mid, none, .rejected m⟩
      | some h =>
        match h.createAnswer m with
        | .ok answer => (s.checkRemoteParams remote i mid).map fun () ↦ ⟨mid, position, answer⟩
        | .error e => if e.isSectionLocal then .ok ⟨mid, position, .rejected m⟩ else .error e

/-- The answers to offered sections from an index on. -/
def planAnswers (s : Session) (remote : Description) :
    Nat → List Section → Except NegotiationError (List Planned)
  | _, [] => .ok []
  | i, m :: ms =>
    match s.planAnswer remote i m with
    | .error e => .error e
    | .ok q => (s.planAnswers remote (i + 1) ms).map (q :: ·)

/-! ## The answer -/

/-- Our setup in an answer. A secured endpoint keeps its role; an offer without setup is that of
the active side. -/
def answerSetup (s : Session) (mid : Mid) (remote : Option Setup) : Setup :=
  let kept := ((s.transport.carrier? mid).bind s.transport.endpoint?).bind fun e ↦
    e.encrypt.map fun side ↦ side.role.setup
  match remote with
  | some .actPass => kept.getD s.config.answerSetup
  | some setup => setup.invert
  | none => .passive

/-- The setups to write in answered sections from an index on. -/
def answerSetups (s : Session) (remote : Description) : Nat → List Planned → List (Option Setup)
  | _, [] => []
  | i, q :: qs =>
    (if isSecure q.body.proto then some (s.answerSetup q.mid (remote.setup? i)) else none) ::
      s.answerSetups remote (i + 1) qs

/-- The identifiers of a group whose sections are accepted. -/
def acceptedGroup (group : List Mid) (sections : List Section) : List Mid :=
  group.filter fun mid ↦ sections.any fun m ↦ !m.isRejected && m.mid? == some mid

/-- Writes the answer whose sections have been placed. -/
def writeAnswer (s : Session) (group : List Mid) (placed : List (Planned × Option Setup)) :
    Description × Session :=
  let (sections, s) := s.decorateAll placed
  s.compose (s.sessionAttrs ++ groupAttrs (acceptedGroup group sections)) sections

/-! ## The outcome -/

/-- The outcome of an answered section, and the endpoint to secure with its setup. -/
def outcome (s : Session) (mid : Mid) (position : Option Nat) (setup : Option Setup)
    (offered answered : Section) : NegotiatedMedia × Option (EndpointId × Setup) :=
  if answered.isRejected then (.refused mid offered, none)
  else
    let endpoint := s.transport.carrier? mid
    let codec := (s.handler? position).bind fun h ↦
      match h.processAnswer offered answered with
      | .ok codec => codec
      | .error _ => none
    ({ mid := mid
       kind := answered.kind
       direction := answered.direction
       codec := codec
       proto := answered.proto
       endpoint := endpoint
       rejected := false },
      endpoint.bind fun id ↦ setup.map fun setup ↦ (id, setup))

/-- The outcomes of answered sections from an index on. -/
def outcomes (s : Session) (remote : Description) :
    Nat → List (Planned × Option Setup) → List Section → List Section →
      List NegotiatedMedia × List (EndpointId × Setup)
  | i, (q, setup) :: qs, o :: os, a :: as =>
    let (n, secured) := s.outcome (midAt remote i) q.handler setup o a
    let (ns, more) := s.outcomes remote (i + 1) qs os as
    (n :: ns, secured.toList ++ more)
  | _, _, _, _ => ([], [])

/-- Secures endpoints, makes the outcome current and stores the descriptions. -/
def concludeAnswer (s : Session) (ports : PortAllocator) (remote answer : Description)
    (negotiated : List NegotiatedMedia) (positions : List (Option Nat)) :
    Session × PortAllocator :=
  let (s, ports) := s.commit ports remote answer negotiated positions
  (settle { s with
    ours := some answer
    theirs := some remote
    settled := .answerGenerated
    state := .answerGenerated }, ports)

/-- Answers a remote offer whose sections have been placed. -/
def finishAnswer (s : Session) (p : Placement) (remote : Description) (placed : List Planned) :
    Reply Description :=
  let decorated := placed.zip (s.answerSetups remote 0 placed)
  let (answer, s) := s.writeAnswer (remote.session.bundle?.getD []) decorated
  let (negotiated, secured) := s.outcomes remote 0 decorated remote.sections answer.sections
  match s.prepareChannels secured with
  | .error e =>
    let (transport, ports) := p.undo
    ⟨.error e, { s with transport := transport }, ports⟩
  | .ok channels =>
    match applyChannels s.transport channels with
    | (.error e, transport) =>
      let (transport, ports) := { p with transport := transport }.undo
      ⟨.error e, { s with transport := transport }, ports⟩
    | (.ok (), transport) =>
      let (s, ports) := { s with transport := transport }.concludeAnswer p.ports remote answer
        negotiated (placed.map Planned.handler)
      ⟨.ok answer, s, ports⟩

/-- Answers a remote offer in the state of having received it. -/
def answerOffer (s : Session) (ports : PortAllocator) (remote : Description) : Reply Description :=
  match s.checkOffer remote with
  | .error e => s.unchanged ports (.error e)
  | .ok () =>
    match s.planAnswers remote 0 remote.sections with
    | .error e => s.unchanged ports (.error e)
    | .ok plan =>
      let group := remote.session.bundle?.getD []
      let offered := plan.zip (remote.sections.map fun m ↦ fun _ ↦ Section.rejected m)
      match Placement.placeAll s.config.portRange group.contains offered
          { transport := s.transport, ports := ports } with
      | (.error e, p) =>
        let (transport, ports) := p.undo
        ⟨.error e, { s with transport := transport }, ports⟩
      | (.ok placed, p) => { s with transport := p.transport }.finishAnswer p remote placed

/-- Whether a remote offer has a place in a state. -/
def takesOffer : NegotiationState → Bool
  | .new | .answerProcessed | .answerGenerated | .established => true
  | _ => false

/-- Answers a remote offer. -/
def processOffer (s : Session) (ports : PortAllocator) (remote : Description) :
    Reply Description :=
  if !takesOffer s.state then s.unchanged ports (.error (s.wrongState "process_offer"))
  else
    match { s with state := .offerReceived }.answerOffer ports remote with
    | ⟨.error e, after, ports⟩ => ⟨.error e, { after with state := s.state }, ports⟩
    | reply => reply

end OfferAnswer.Session
