import OfferAnswer.Handler.Basic

/-!
# Data channels

The handler of SCTP over DTLS. Offer and answer give the SCTP port and the greatest message each
side takes. An older form of offer gives the port in a `sctpmap` line instead; it is answered in
kind.
-/

namespace OfferAnswer

/-- A handler of data channels. -/
structure SctpHandler where
  /-- Our SCTP port. -/
  port : UInt16 := 5000
  /-- The greatest message we take. -/
  maxMessageSize : UInt32 := 262144
deriving DecidableEq, Repr

namespace SctpHandler

/-- The protocol without anything in front. -/
def base : String := "DTLS/SCTP"

/-- The protocol of our offers. -/
def proto : String := "UDP/DTLS/SCTP"

/-- The one format of our offers. -/
def format : String := "webrtc-datachannel"

/-- The greatest message of a peer that does not say. -/
def defaultMaxMessageSize : UInt32 := 65536

def takesProtocol (proto : String) : Bool :=
  Handler.protocolMatches base Handler.transportPrefixes proto

/-- The remote SCTP port of a section, in either form. -/
def remotePort? (m : Section) : Option UInt16 :=
  match m.attr? "sctp-port" with
  | some v => Numeral.readUInt16 (Text.trim v.toList)
  | none => (m.attr? "sctpmap").bind fun v ↦ Numeral.readUInt16 (Text.before ' ' v.toList)

/-- Whether a section gives its port in the older form. -/
def isLegacy (m : Section) : Bool := m.hasAttr "sctpmap" && !m.hasAttr "sctp-port"

/-! ## Offering -/

/-- An offered section without our port. -/
def createOffer (kind : MediaKind) : Except NegotiationError Section :=
  if !kind.isChannel then .error (.invalidMedia ("SCTP handler can't offer " ++ kind.name))
  else
    let m : Section := { kind := .application, port := 1, proto := proto, formats := [format] }
    .ok (m.add (.of "setup" "actpass"))

/-- Adds our port and greatest message to a section. -/
def addOfferAttributes (h : SctpHandler) (m : Section) : Section :=
  (m.add (.of "sctp-port" (Numeral.decimal h.port.toNat))).add
    (.of "max-message-size" (Numeral.decimal h.maxMessageSize.toNat))

/-! ## Answering -/

/-- The greatest message to announce in an answer: the lesser of both, where 0 means any. -/
def answerMaxMessageSize (h : SctpHandler) (offer : Section) : UInt32 :=
  let remote := ((offer.attr? "max-message-size").bind fun v ↦
    Numeral.readUInt32 (Text.trim v.toList)).getD defaultMaxMessageSize
  if remote = 0 then h.maxMessageSize
  else if remote ≤ h.maxMessageSize then remote
  else h.maxMessageSize

/-- The lines of an answer that are derived rather than copied. -/
def answerLines (h : SctpHandler) (offer : Section) : List Attribute :=
  if isLegacy offer then
    [.of "sctpmap" (Numeral.decimal h.port.toNat ++ " webrtc-datachannel 1024")]
  else
    [.of "sctp-port" (Numeral.decimal h.port.toNat),
      .of "max-message-size" (Numeral.decimal (h.answerMaxMessageSize offer).toNat)]

/-- The keys that are derived rather than copied. -/
def derivedKeys : List String := ["sctp-port", "sctpmap", "max-message-size"]

/-- Whether an offered attribute may be copied into an answer. -/
def canInsert (a : Attribute) (answer : Section) : Bool :=
  Handler.canInsertExcept derivedKeys a answer

/-- Answers an offered section. -/
def createAnswer (h : SctpHandler) (offer : Section) : Except NegotiationError Section :=
  match Handler.checkOffer takesProtocol .application offer with
  | .error e => .error e
  | .ok () =>
    if (remotePort? offer).isNone then
      .error (.invalidParameter "SCTP offer without sctp-port")
    else
      let m : Section :=
        { kind := .application, port := 1, proto := offer.proto, formats := offer.formats }
      Handler.intersect canInsert offer (m.addAll (h.answerLines offer))

/-- Checks an answer. Data channels have no codec. -/
def processAnswer (answer : Section) : Except NegotiationError Unit :=
  if !answer.isRejected && (remotePort? answer).isNone then
    .error (.invalidParameter "SCTP answer without sctp-port")
  else .ok ()

end SctpHandler

end OfferAnswer
