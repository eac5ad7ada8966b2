import OfferAnswer.Session.Answer

/-!
# Applying an answer

The remote answer to our pending offer must have the same sections in the same order. A section is
accepted if both sides accept it and its handler finds the answer usable. A bundled section that
the answer does not bundle is rejected, unless it is the first of our group: only that one owns
the transport.

On an error the offer stays pending.
-/

namespace OfferAnswer.Session

/-! ## Checking the answer -/

/-- The kinds of offered and answered sections must agree, and so must the identifiers that the
answer gives. -/
def checkPairs : Nat → List (Section × Section) → Except NegotiationError Unit
  | _, [] => .ok ()
  | i, (o, a) :: rest =>
    if o.kind ≠ a.kind then
      .error (.remote ("m-line " ++ Numeral.decimal i ++ " is " ++ a.kind.name ++
        " in answer, " ++ o.kind.name ++ " in offer"))
    else
      match a.mid? with
      | some mid =>
        if o.mid? = some mid then checkPairs (i + 1) rest
        else
          .error (.remote
            ("m-line " ++ Numeral.decimal i ++ " has mid " ++ mid.text ++ " in answer"))
      | none => checkPairs (i + 1) rest

/-- The checks of an answer as a whole. -/
def checkAnswer (s : Session) (offer answer : Description) : Except NegotiationError Unit := do
  checkConsistent answer
  if answer.sections.length ≠ offer.sections.length then
    .error (.remote ("answer has " ++ Numeral.decimal answer.sections.length ++
      " m-lines, offer " ++ Numeral.decimal offer.sections.length))
  checkPairs 0 (offer.sections.zip answer.sections)
  s.checkIceLite answer

/-! ## The outcome -/

/-- Whether the answer leaves a section out of our bundle whose transport another one owns. -/
def isUnbundled (offered answered : List Mid) (mid : Mid) : Bool :=
  offered.contains mid && !answered.contains mid && offered.head? != some mid

/-- The setup that we settle on with an answered section; none without a certificate. An answer
without setup is that of the active side. -/
def settledSetup (s : Session) (answer : Description) (i : Nat) (mid : Mid) :
    Except NegotiationError (Option Setup) :=
  if s.config.certificate.isNone then .ok none
  else
    let remote := (answer.setup? i).getD .active
    match Setup.resolve .actPass remote with
    | some setup => .ok (some setup)
    | none => .error (.remote ("answer setup " ++ remote.text ++ " for " ++ mid.text))

/-- What an accepted section says about DTLS, checked: the setup to secure its endpoint with. -/
def securedSetup (s : Session) (answer : Description) (i : Nat) (mid : Mid) (a : Section) :
    Except NegotiationError (Option Setup) := do
  if !isSecure a.proto then return none
  s.checkRemoteParams answer i mid
  s.settledSetup answer i mid

/-- The outcome of a section for which we have a handler and an endpoint. -/
def acceptSection (s : Session) (h : MediaHandler) (endpoint : EndpointId) (answer : Description)
    (i : Nat) (mid : Mid) (o a : Section) :
    Except NegotiationError (NegotiatedMedia × Option (EndpointId × Setup)) :=
  match h.processAnswer o a with
  | .error e => if e.isSectionLocal then .ok (.refused mid o, none) else .error e
  | .ok codec =>
    (s.securedSetup answer i mid a).map fun setup ↦
      ({ mid := mid
         kind := o.kind
         direction := a.direction.invert
         codec := codec
         proto := o.proto
         endpoint := some endpoint
         rejected := false },
        setup.map fun setup ↦ (endpoint, setup))

/-- The outcome of an offered section and its answer. -/
def settleSection (s : Session) (pending : PendingOffer) (answer : Description) (i : Nat)
    (o a : Section) : Except NegotiationError (NegotiatedMedia × Option (EndpointId × Setup)) :=
  let mid := o.mid?.getD (Mid.ofIndex i)
  let refused := .ok (.refused mid o, none)
  match s.handler? (pending.handlers[i]?).join, s.transport.carrier? mid with
  | some h, some endpoint =>
    if o.isRejected || a.isRejected then refused
    else if isUnbundled (pending.offer.session.bundle?.getD []) (answer.session.bundle?.getD [])
        mid then refused
    else s.acceptSection h endpoint answer i mid o a
  | _, _ => refused

/-- The outcomes of offered sections and their answers from an index on. -/
def settleSections (s : Session) (pending : PendingOffer) (answer : Description) :
    Nat → List (Section × Section) →
      Except NegotiationError (List NegotiatedMedia × List (EndpointId × Setup))
  | _, [] => .ok ([], [])
  | i, (o, a) :: rest =>
    match s.settleSection pending answer i o a with
    | .error e => .error e
    | .ok (n, secured) =>
      (s.settleSections pending answer (i + 1) rest).map fun (ns, more) ↦
        (n :: ns, secured.toList ++ more)

/-! ## Applying -/

/-- Makes the outcome current and stores the answer. -/
def concludeAccept (s : Session) (ports : PortAllocator) (pending : PendingOffer)
    (answer : Description) (negotiated : List NegotiatedMedia) : Session × PortAllocator :=
  let (s, ports) := s.commit ports answer answer negotiated pending.handlers
  (settle { s with
    theirs := some answer
    settled := .answerProcessed
    state := .answerProcessed }, ports)

/-- Applies an answer to a pending offer. -/
def applyAnswer (s : Session) (ports : PortAllocator) (pending : PendingOffer)
    (answer : Description) : Reply Unit :=
  match s.checkAnswer pending.offer answer with
  | .error e => s.unchanged ports (.error e)
  | .ok () =>
    match s.settleSections pending answer 0 (pending.offer.sections.zip answer.sections) with
    | .error e => s.unchanged ports (.error e)
    | .ok (negotiated, secured) =>
      match s.prepareChannels secured with
      | .error e => s.unchanged ports (.error e)
      | .ok channels =>
        match applyChannels s.transport channels with
        | (.error e, transport) => ⟨.error e, { s with transport := transport }, ports⟩
        | (.ok (), transport) =>
          let (s, ports) := { s with transport := transport }.concludeAccept ports pending answer
            negotiated
          ⟨.ok (), s, ports⟩

/-- Applies the remote answer to our offer. -/
def processAnswer (s : Session) (ports : PortAllocator) (answer : Description) : Reply Unit :=
  match s.state, s.pending with
  | .offerGenerated, some pending =>
    match { s with pending := none }.applyAnswer ports pending answer with
    | ⟨.error e, after, ports⟩ => ⟨.error e, { after with pending := some pending }, ports⟩
    | reply => reply
  | _, _ => s.unchanged ports (.error (s.wrongState "process_answer"))

end OfferAnswer.Session
