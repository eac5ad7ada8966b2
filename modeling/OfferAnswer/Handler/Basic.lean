import OfferAnswer.Error

/-!
# Answering a section

What all media handlers share: which protocols they take, and which attributes of an offered
section may stand in its answer.

An answer never repeats what belongs to the offerer alone. Directions, ICE and DTLS parameters
and identifiers are derived anew, and the offerer's sources are its own; everything else is
copied once, unless a handler derives it itself.
-/

namespace OfferAnswer.Handler

/-! ## Protocols -/

/-- What may stand in front of a base protocol. -/
def transportPrefixes : List String := ["UDP/", "TCP/"]

/-- What may stand in front of an RTP profile. -/
def rtpPrefixes : List String := ["UDP/", "TCP/", "UDP/TLS/", "TCP/TLS/"]

/-- Whether a protocol is the base, alone or after one of the prefixes. -/
def protocolMatches (base : String) (prefixes : List String) (proto : String) : Bool :=
  proto == base || prefixes.any fun p ↦ Text.dropLead? proto p == some base

/-! ## Attributes -/

/-- The keys, directions and ICE aside, that an answer does not take from an offer. -/
def ownKeys : List String :=
  ["mid", "setup", "fingerprint", "candidate", "end-of-candidates", "rtcp", "ssrc", "ssrc-group",
    "msid", "rid", "simulcast"]

/-- Whether the key belongs to the side that wrote the attribute. -/
def isOwn (a : Attribute) : Bool :=
  a.direction?.isSome || Text.startsWith a.key "ice-" || ownKeys.contains a.key

/-- Whether an offered attribute may be copied into the answer. -/
def canInsert (a : Attribute) (answer : Section) : Bool :=
  !isOwn a && !answer.attrs.contains a

/-- Whether an offered attribute may be copied by a handler that derives some keys itself. -/
def canInsertExcept (derived : List String) (a : Attribute) (answer : Section) : Bool :=
  !derived.contains a.key && canInsert a answer

/-- The error of an attribute without a key. -/
def keylessError (kind : MediaKind) : NegotiationError :=
  .unexpected ("Can't insert attribute without key in " ++ kind.name ++ " section")

/-- Copies those of some attributes that may be inserted. -/
def insertAll (may : Attribute → Section → Bool) (kind : MediaKind) :
    List Attribute → Section → Except NegotiationError Section
  | [], answer => .ok answer
  | a :: as, answer =>
    if !may a answer then insertAll may kind as answer
    else if a.key.isEmpty then .error (keylessError kind)
    else insertAll may kind as (answer.add a)

/-- Copies the attributes of an offer that may stand in its answer. -/
def intersect (may : Attribute → Section → Bool) (offer answer : Section) :
    Except NegotiationError Section :=
  insertAll may offer.kind offer.attrs answer

/-! ## Offered sections -/

/-- The checks that every handler makes before it answers. -/
def checkOffer (takesProtocol : String → Bool) (kind : MediaKind) (offer : Section) :
    Except NegotiationError Unit :=
  if !takesProtocol offer.proto then .error (.invalidProtocol offer.proto)
  else if offer.kind ≠ kind then
    .error (.invalidMedia (kind.name ++ " handler can't answer " ++ offer.kind.name))
  else if offer.formats.isEmpty then
    .error (.invalidMedia (offer.kind.name ++ " offer has no formats"))
  else .ok ()

end OfferAnswer.Handler
