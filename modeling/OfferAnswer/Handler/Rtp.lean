import OfferAnswer.Handler.Basic
import OfferAnswer.Handler.Codec

/-!
# Audio and video

The handler of RTP sections. It offers its codecs under its own payload types. It answers with
those of the offered formats that mean one of its codecs, in the offerer's order and under the
offerer's payload types, and with the feedback that both sides know.
-/

namespace OfferAnswer

/-! ## Profiles -/

/-- An RTP profile. -/
inductive RtpProfile where
  /-- RTP. -/
  | avp
  /-- RTP with feedback. -/
  | avpf
  /-- SRTP. -/
  | savp
  /-- SRTP with feedback, over DTLS. -/
  | savpf
deriving DecidableEq, Repr

namespace RtpProfile

/-- The protocol without anything in front. -/
def base : RtpProfile → String
  | avp => "RTP/AVP"
  | avpf => "RTP/AVPF"
  | savp => "RTP/SAVP"
  | savpf => "RTP/SAVPF"

/-- The protocol of our offers. -/
def proto : RtpProfile → String
  | savpf => "UDP/TLS/RTP/SAVPF"
  | p => p.base

def hasFeedback : RtpProfile → Bool
  | avpf | savpf => true
  | _ => false

def name : RtpProfile → String
  | avp => "Avp"
  | avpf => "Avpf"
  | savp => "Savp"
  | savpf => "Savpf"

def all : List RtpProfile := [avp, avpf, savp, savpf]

def ofName? (s : String) : Option RtpProfile := all.find? (·.name == s)

end RtpProfile

/-! ## The handler -/

/-- A handler of audio or video. -/
structure RtpHandler where
  /-- Audio or video. -/
  kind : MediaKind
  /-- The profile it speaks. -/
  profile : RtpProfile
  /-- Its codecs, in order of preference. -/
  codecs : List Codec
  /-- The direction it is prepared for. -/
  direction : Direction
deriving DecidableEq, Repr

namespace RtpHandler

/-- A handler of given parts, if they make one. -/
def make (kind : MediaKind) (profile : RtpProfile) (codecs : List Codec) (direction : Direction) :
    Except NegotiationError RtpHandler :=
  if !kind.isMedia then .error (.invalidMedia ("RTP handler for " ++ kind.name))
  else if codecs.isEmpty then .error (.invalidParameter ("no codecs for " ++ kind.name))
  else .ok ⟨kind, profile, codecs, direction⟩

def takesProtocol (h : RtpHandler) (proto : String) : Bool :=
  Handler.protocolMatches h.profile.base Handler.rtpPrefixes proto

/-- The codec of a format of our own. -/
def codecOf? (h : RtpHandler) (format : String) : Option Codec :=
  h.codecs.find? (·.format == format)

/-- The codec of ours that a name and clock rate mean. -/
def codecNamed? (h : RtpHandler) (r : RtpMap) : Option Codec :=
  h.codecs.find? (·.isNamed r.name r.clockRate)

/-- The codec of ours that a section declares a format to be. -/
def match? (h : RtpHandler) (m : Section) (format : String) : Option Codec :=
  (m.rtpmap? format).bind h.codecNamed?

/-! ## Offering -/

/-- Adds to formats those of our codecs that are missing. -/
def addFormats (formats : List String) (codecs : List Codec) : List String :=
  codecs.foldl (fun fs c ↦ if fs.contains c.format then fs else fs ++ [c.format]) formats

/-- The formats of an offer: those of a previous one that are still ours, then the others. -/
def offerFormats (h : RtpHandler) (previous : Option Section) : List String :=
  addFormats ((previous.map (·.formats)).getD [] |>.filter fun f ↦ (h.codecOf? f).isSome) h.codecs

/-- An offered section without the lines of its formats. -/
def createOffer (h : RtpHandler) (kind : MediaKind) (previous : Option Section) :
    Except NegotiationError Section :=
  if kind ≠ h.kind then
    .error (.invalidMedia (h.kind.name ++ " handler can't offer " ++ kind.name))
  else
    let m : Section :=
      { kind := kind, port := 1, proto := h.profile.proto, formats := h.offerFormats previous }
    .ok ((m.add (.of "setup" "actpass")).setDirection h.direction)

/-- The lines of a format of our own. -/
def formatLines (h : RtpHandler) (format : String) (c : Codec) : List Attribute :=
  .of "rtpmap" c.rtpmap :: (c.fmtp.map fun v ↦ .of "fmtp" (format ++ " " ++ v)).toList ++
    if h.profile.hasFeedback then c.feedback.map fun v ↦ .of "rtcp-fb" (format ++ " " ++ v) else []

/-- Adds the lines of formats in order, up to the first that is not ours. -/
def addFormatLines (h : RtpHandler) : List String → Section → Except NegotiationError Unit × Section
  | [], m => (.ok (), m)
  | f :: fs, m =>
    match h.codecOf? f with
    | some c => h.addFormatLines fs (m.addAll (h.formatLines f c))
    | none =>
      (.error (.invalidParameter ("no codec for pt " ++ f ++ " in " ++ h.kind.name)), m)

/-- Adds the lines of all formats of a section. -/
def addOfferAttributes (h : RtpHandler) (m : Section) : Except NegotiationError Unit × Section :=
  h.addFormatLines m.formats m

/-! ## Answering -/

/-- The feedback lines of a format that the offer and our codec both know. -/
def feedbackLines (offer : Section) (format : String) (c : Codec) : List Attribute :=
  (offer.attrsOf "rtcp-fb").filterMap fun a ↦
    let word := Text.firstWord a.content
    let kind := Text.afterFirstWord a.content
    if (word = format ∨ word = "*") ∧ c.feedback.contains kind then
      some (.of "rtcp-fb" (format ++ " " ++ kind))
    else none

/-- The lines of an offered format in the answer: the offer's own, and the common feedback. -/
def answerLines (offer : Section) (format : String) (c : Codec) : List Attribute :=
  (offer.attrFor? "rtpmap" format).toList ++ (offer.attrFor? "fmtp" format).toList ++
    feedbackLines offer format c

/-- Answers offered formats in order. -/
def answerFormats (h : RtpHandler) (offer : Section) : List String → Section → Section
  | [], m => m
  | f :: fs, m =>
    match h.match? offer f with
    | some c =>
      h.answerFormats offer fs
        ({ m with formats := m.formats ++ [f] }.addAll (answerLines offer f c))
    | none => h.answerFormats offer fs m

/-- The keys that are derived from the common codecs. -/
def derivedKeys : List String := ["rtpmap", "fmtp", "rtcp-fb", "rtcp-mux"]

/-- Whether an offered attribute may be copied into an answer. -/
def canInsert (a : Attribute) (answer : Section) : Bool :=
  Handler.canInsertExcept derivedKeys a answer

/-- Answers an offered section. -/
def createAnswer (h : RtpHandler) (offer : Section) : Except NegotiationError Section :=
  match Handler.checkOffer h.takesProtocol h.kind offer with
  | .error e => .error e
  | .ok () =>
    let m := h.answerFormats offer offer.formats
      { kind := offer.kind, port := 1, proto := offer.proto }
    if m.formats.isEmpty then
      .error (.invalidMedia ("no common codec for " ++ offer.kind.name))
    else
      let m := if offer.rtcpMux then m.add (.flag "rtcp-mux") else m
      Handler.intersect canInsert offer
        (m.setDirection (Direction.answerTo offer.direction h.direction))

/-! ## Applying an answer -/

/-- The codec that an answered format stands for, if it was offered and means one of ours. The
answer's own `rtpmap` line wins over the offer's. -/
def answeredCodec? (h : RtpHandler) (offer answer : Section) (format : String) : Option Codec := do
  if !offer.formats.contains format then none
  let r ← (answer.rtpmap? format).or (offer.rtpmap? format)
  if (h.codecNamed? r).isNone then none
  let pt ← Numeral.readUInt8 format.toList
  return {
    pt := pt
    name := r.name
    clockRate := r.clockRate
    channels := r.channels
    fmtp := (answer.attrFor? "fmtp" format).map fun a ↦ Text.afterFirstWord a.content
    feedback := (answer.attrsOf "rtcp-fb").filterMap fun a ↦
      let word := Text.firstWord a.content
      if word = format ∨ word = "*" then some (Text.afterFirstWord a.content) else none }

/-- The codec that an answer settles on: that of its first usable format. -/
def processAnswer (h : RtpHandler) (offer answer : Section) :
    Except NegotiationError (Option Codec) :=
  if answer.isRejected then .ok none
  else if answer.formats.isEmpty then
    .error (.invalidMedia (answer.kind.name ++ " answer has no formats"))
  else
    match answer.formats.findSome? (h.answeredCodec? offer answer) with
    | some c => .ok (some c)
    | none => .error (.invalidMedia ("no usable codec in " ++ answer.kind.name ++ " answer"))

end RtpHandler

end OfferAnswer
