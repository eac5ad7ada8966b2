import OfferAnswer.Handler.Media
import OfferAnswer.Transport.Binding

/-!
# Session configuration

What a session is built from: where local ports come from, whether sections share a transport,
ICE and DTLS parameters, and the handlers in the order in which their sections are offered.

A configuration can be written down with any values; `SessionConfig.check` says whether a session
can be built from it.
-/

namespace OfferAnswer

/-- Whether the sections of our offers share a transport. -/
inductive BundlePolicy where
  /-- Every section has its own. -/
  | none
  /-- All sections share one. -/
  | maxBundle
deriving DecidableEq, Repr

/-- A certificate for DTLS. -/
structure DtlsCertificate where
  /-- The certificate in PEM form. -/
  pem : String
  /-- Its fingerprint. -/
  fingerprint : Fingerprint
deriving DecidableEq, Repr

/-- The settings of an audio or video handler. -/
structure RtpConfig where
  profile : RtpProfile := .savpf
  /-- The codecs, in order of preference. -/
  codecs : List Codec
  /-- The direction we want. -/
  direction : Direction := .sendRecv
deriving DecidableEq, Repr

/-- The settings of a data channel handler. -/
structure SctpConfig where
  /-- Our SCTP port. -/
  port : UInt16 := 5000
  /-- The greatest message we take. -/
  maxMessageSize : UInt32 := 262144
deriving DecidableEq, Repr

/-- The settings of one handler. -/
inductive HandlerConfig where
  | audio (config : RtpConfig)
  | video (config : RtpConfig)
  /-- Data channels. -/
  | sctp (config : SctpConfig)
deriving DecidableEq, Repr

namespace HandlerConfig

def defaultAudio : HandlerConfig := .audio { codecs := Codec.defaultAudio }

def defaultVideo : HandlerConfig := .video { codecs := Codec.defaultVideo }

def defaultSctp : HandlerConfig := .sctp {}

/-- The handler of some settings, if they make one. -/
def handler : HandlerConfig → Except NegotiationError MediaHandler
  | audio c => (RtpHandler.make .audio c.profile c.codecs c.direction).map .rtp
  | video c => (RtpHandler.make .video c.profile c.codecs c.direction).map .rtp
  | sctp c =>
    if c.port = 0 then .error (.invalidParameter "sctp port 0")
    else .ok (.sctp ⟨c.port, c.maxMessageSize⟩)

end HandlerConfig

/-- The configuration of a session. -/
structure SessionConfig where
  /-- Where local ports come from. -/
  portRange : PortRange := ⟨10000, 20000⟩
  /-- Whether the sections of our offers share a transport. -/
  bundlePolicy : BundlePolicy := .none
  /-- Whether RTP sections offer to share one port with RTCP. -/
  rtcpMux : Bool := true
  /-- Whether we are an ICE lite agent. -/
  iceLite : Bool := false
  /-- Our ICE credentials; without any they are random. -/
  credentials : Option IceCredentials := none
  /-- Our certificate; without one nothing is secured. -/
  certificate : Option DtlsCertificate := none
  /-- Our setup when the offer leaves it open. -/
  answerSetup : Setup := .active
  /-- The address of connection lines. -/
  connectionAddress : IpAddress := .v4 .unspecified
  /-- The handlers, in the order of our sections. -/
  handlers : List HandlerConfig := [.defaultAudio, .defaultVideo]
deriving DecidableEq, Repr

namespace SessionConfig

/-- What is wrong with a configuration, its handlers aside. -/
def fault? (c : SessionConfig) : Option String :=
  if !c.portRange.isUsable then some ("bad port range " ++ c.portRange.text)
  else if c.answerSetup = .actPass then some "answer setup must be active or passive"
  else if c.certificate.any fun cert ↦ !TransportBinding.isPem cert.pem then
    some "DTLS certificate is not PEM encoded"
  else if c.handlers.isEmpty then some "no media handlers"
  else none

/-- The handlers of some settings, if each makes one. -/
def handlersOf : List HandlerConfig → Except NegotiationError (List MediaHandler)
  | [] => .ok []
  | c :: cs =>
    match c.handler with
    | .error e => .error e
    | .ok h => (handlersOf cs).map (h :: ·)

/-- The handlers of a configuration from which a session can be built. -/
def check (c : SessionConfig) : Except NegotiationError (List MediaHandler) :=
  match c.fault? with
  | some fault => .error (.invalidParameter fault)
  | none => handlersOf c.handlers

end SessionConfig

end OfferAnswer
