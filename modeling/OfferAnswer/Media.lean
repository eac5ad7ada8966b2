/-!
# Media kinds and directions

What a section carries, and which way. A kind this library does not handle keeps its name, so
that its section can be refused in place without disturbing the order of the others.

`Direction.answerTo` is the rule of the offer/answer model: what the offerer sends we can only
receive, and we do no more than we are prepared to do ourselves.
-/

namespace OfferAnswer

/-! ## Kinds -/

/-- The kind of media a section declares. -/
inductive MediaKind where
  | audio
  | video
  /-- Data, typically channels over SCTP. -/
  | application
  /-- A kind that is not handled, by its name. -/
  | other (name : String)
deriving DecidableEq, Repr

namespace MediaKind

/-- The kind of a name. -/
def ofName (s : String) : MediaKind :=
  if s = "audio" then .audio
  else if s = "video" then .video
  else if s = "application" then .application
  else .other s

/-- The name of a kind, as written in a description. -/
def name : MediaKind → String
  | audio => "audio"
  | video => "video"
  | application => "application"
  | other s => s

/-- Audio and video are carried over RTP. -/
def isMedia : MediaKind → Bool
  | audio | video => true
  | _ => false

/-- Application data is carried over a data channel. -/
def isChannel : MediaKind → Bool
  | application => true
  | _ => false

/-- Whether the kind is one of the three that are handled. -/
def isKnown : MediaKind → Bool
  | other _ => false
  | _ => true

end MediaKind

/-! ## Directions -/

/-- The direction of a section, as seen from the side that writes it. -/
inductive Direction where
  | sendOnly
  | recvOnly
  | sendRecv
  | inactive
deriving DecidableEq, Repr

namespace Direction

/-- The direction that sends and receives as told. -/
def of (sends receives : Bool) : Direction :=
  match sends, receives with
  | true, true => sendRecv
  | true, false => sendOnly
  | false, true => recvOnly
  | false, false => inactive

/-- The same direction seen from the other side. -/
def invert : Direction → Direction
  | sendOnly => recvOnly
  | recvOnly => sendOnly
  | d => d

def isSending : Direction → Bool
  | sendOnly | sendRecv => true
  | _ => false

def isReceiving : Direction → Bool
  | recvOnly | sendRecv => true
  | _ => false

/-- The direction of an answer, given the offered one and the one we are prepared to do. -/
def answerTo (offered ours : Direction) : Direction :=
  of (offered.invert.isSending && ours.isSending)
    (offered.invert.isReceiving && ours.isReceiving)

/-- The attribute key that declares the direction. -/
def key : Direction → String
  | sendOnly => "sendonly"
  | recvOnly => "recvonly"
  | sendRecv => "sendrecv"
  | inactive => "inactive"

/-- The direction that an attribute key declares. -/
def ofKey? (s : String) : Option Direction :=
  if s = "sendonly" then some sendOnly
  else if s = "recvonly" then some recvOnly
  else if s = "sendrecv" then some sendRecv
  else if s = "inactive" then some inactive
  else none

end Direction

end OfferAnswer
