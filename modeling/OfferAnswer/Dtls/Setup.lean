/-!
# DTLS setup

Which side opens the DTLS handshake. An offer leaves it open (`actpass`), an answer settles it.
`Setup.resolve` gives our final setup from both sides' words; it is undefined exactly when the
two do not name one client and one server.
-/

namespace OfferAnswer

/-- The value of a setup attribute. -/
inductive Setup where
  /-- Either side, as written in offers. -/
  | actPass
  /-- The writer opens the handshake. -/
  | active
  /-- The writer waits for the handshake. -/
  | passive
deriving DecidableEq, Repr

/-- Our side of a handshake. -/
inductive DtlsRole where
  /-- We open the handshake. -/
  | client
  /-- We wait for it. -/
  | server
deriving DecidableEq, Repr

namespace Setup

/-- A setup that nobody has decided on is open. -/
instance : Inhabited Setup := ⟨.actPass⟩

def text : Setup → String
  | actPass => "actpass"
  | active => "active"
  | passive => "passive"

/-- The setup of a text. -/
def ofText? (s : String) : Option Setup :=
  if s = "actpass" then some actPass
  else if s = "active" then some active
  else if s = "passive" then some passive
  else none

/-- The setup the other side ends up with. -/
def invert : Setup → Setup
  | actPass => actPass
  | active => passive
  | passive => active

/-- Our final setup, given ours and the remote one. -/
def resolve : Setup → Setup → Option Setup
  | actPass, actPass => none
  | actPass, active => some passive
  | actPass, passive => some active
  | active, active => none
  | active, _ => some active
  | passive, passive => none
  | passive, _ => some passive

/-- The role of a settled setup. An open one has none. -/
def role? : Setup → Option DtlsRole
  | active => some .client
  | passive => some .server
  | actPass => none

end Setup

/-- The setup that names a role. -/
def DtlsRole.setup : DtlsRole → Setup
  | client => .active
  | server => .passive

end OfferAnswer
