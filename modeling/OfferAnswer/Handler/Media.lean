import OfferAnswer.Handler.Rtp
import OfferAnswer.Handler.Sctp

/-!
# Media handlers

A session has one handler for each section it offers, and takes the first that fits for each
section it is offered. There are two kinds: for RTP and for data channels.
-/

namespace OfferAnswer

/-- A handler of sections. -/
inductive MediaHandler where
  /-- Of audio or video. -/
  | rtp (handler : RtpHandler)
  /-- Of data channels. -/
  | sctp (handler : SctpHandler)
deriving DecidableEq, Repr

namespace MediaHandler

def kind : MediaHandler → MediaKind
  | rtp h => h.kind
  | sctp _ => .application

/-- The protocol it speaks, without anything in front. -/
def protocol : MediaHandler → String
  | rtp h => h.profile.base
  | sctp _ => SctpHandler.base

/-- What may stand in front of its protocol. -/
def prefixes : MediaHandler → List String
  | rtp _ => Handler.rtpPrefixes
  | sctp _ => Handler.transportPrefixes

def takesProtocol : MediaHandler → String → Bool
  | rtp h => h.takesProtocol
  | sctp _ => SctpHandler.takesProtocol

def takesKind (h : MediaHandler) (kind : MediaKind) : Bool := kind == h.kind

/-- Whether it handles an offered section. -/
def takes (h : MediaHandler) (m : Section) : Bool := h.takesProtocol m.proto && h.takesKind m.kind

/-- An offered section without the lines that `addOfferAttributes` adds. -/
def createOffer (h : MediaHandler) (kind : MediaKind) (previous : Option Section) :
    Except NegotiationError Section :=
  match h with
  | rtp h => h.createOffer kind previous
  | sctp _ => SctpHandler.createOffer kind

/-- Adds what the handler must say in an offer. What was added before an error stays. -/
def addOfferAttributes (h : MediaHandler) (m : Section) :
    Except NegotiationError Unit × Section :=
  match h with
  | rtp h => h.addOfferAttributes m
  | sctp h => (.ok (), h.addOfferAttributes m)

/-- A whole offered section. -/
def offer (h : MediaHandler) (kind : MediaKind) (previous : Option Section) :
    Except NegotiationError Section :=
  match h.createOffer kind previous with
  | .error e => .error e
  | .ok m =>
    match h.addOfferAttributes m with
    | (.error e, _) => .error e
    | (.ok (), m) => .ok m

/-- Answers an offered section. -/
def createAnswer (h : MediaHandler) (offer : Section) : Except NegotiationError Section :=
  match h with
  | rtp h => h.createAnswer offer
  | sctp h => h.createAnswer offer

/-- Whether an offered attribute may be copied into an answer. -/
def canInsert : MediaHandler → Attribute → Section → Bool
  | rtp _ => RtpHandler.canInsert
  | sctp _ => SctpHandler.canInsert

/-- Copies the attributes of an offer that may stand in its answer. -/
def intersect (h : MediaHandler) (offer answer : Section) : Except NegotiationError Section :=
  Handler.intersect h.canInsert offer answer

/-- Checks an answer to an offered section, and says which codec it settles on. -/
def processAnswer (h : MediaHandler) (offer answer : Section) :
    Except NegotiationError (Option Codec) :=
  match h with
  | rtp h => h.processAnswer offer answer
  | sctp _ => (SctpHandler.processAnswer answer).map fun () ↦ none

end MediaHandler

end OfferAnswer
