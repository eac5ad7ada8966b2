import OfferAnswer.Media

/-!
# Attributes

The `a=` lines of a description: a key, with or without a value. Some keys may stand only once in
a section. Adding is the discipline that keeps it so: `Attribute.addOnce` leaves the list alone
when the very attribute is there, puts a single-valued one in the place of the first with its
key, and appends anything else.
-/

namespace OfferAnswer

/-- An attribute: a key and perhaps a value. -/
structure Attribute where
  /-- The part before the colon. -/
  key : String
  /-- The part after the colon; a flag has none. -/
  value : Option String
deriving DecidableEq, Repr

namespace Attribute

/-- An attribute without a value. -/
def flag (key : String) : Attribute := ⟨key, none⟩

/-- An attribute with a value. -/
def of (key value : String) : Attribute := ⟨key, some value⟩

/-- The value, empty for a flag. -/
def content (a : Attribute) : String := a.value.getD ""

/-- The keys, other than directions, that may stand only once in a section. -/
def singleKeys : List String :=
  ["mid", "setup", "rtcp", "rtcp-mux", "rtcp-rsize", "ice-ufrag", "ice-pwd", "ice-options",
    "fingerprint", "sctp-port", "max-message-size"]

/-- The direction that the attribute declares, if it is a direction attribute. -/
def direction? (a : Attribute) : Option Direction := Direction.ofKey? a.key

/-- Whether the attribute may stand only once in a section. -/
def isSingle (a : Attribute) : Bool := singleKeys.contains a.key || a.direction?.isSome

/-! ## Lists of attributes -/

/-- The content of the first attribute with a key. -/
def lookup (key : String) (attrs : List Attribute) : Option String :=
  (attrs.find? (·.key == key)).map content

/-- Whether there is an attribute with a key. -/
def hasKey (key : String) (attrs : List Attribute) : Bool := attrs.any (·.key == key)

/-- Puts an attribute in the place of the first one with its key. -/
def replaceFirst (a : Attribute) : List Attribute → List Attribute
  | [] => []
  | b :: bs => if b.key = a.key then a :: bs else b :: replaceFirst a bs

/-- Adds an attribute unless it is there; a single-valued one replaces the one it contradicts. -/
def addOnce (a : Attribute) (attrs : List Attribute) : List Attribute :=
  if a ∈ attrs then attrs
  else if a.isSingle && hasKey a.key attrs then replaceFirst a attrs
  else attrs ++ [a]

/-- Adds several attributes in order. -/
def addAllOnce (as : List Attribute) (attrs : List Attribute) : List Attribute :=
  as.foldl (fun attrs a ↦ addOnce a attrs) attrs

end Attribute

end OfferAnswer
