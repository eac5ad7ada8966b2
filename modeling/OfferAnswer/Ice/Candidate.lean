import OfferAnswer.Ip.Text
import OfferAnswer.Entropy

/-!
# ICE credentials and candidates

A candidate is a transport address at which a peer may be reached. Host candidates are made here
from the address of a local socket; all others arrive as text.

The foundation groups similar candidates. That of a host candidate is a hash of its kind, its
address and its protocol, cut to 32 bits: candidates that agree in all three have the same one, and
others may have it, too. Nothing here depends on which hash that is, so it is a parameter.
-/

namespace OfferAnswer

/-! ## Credentials -/

/-- The user name fragment and password of one side. -/
structure IceCredentials where
  /-- The user name fragment. -/
  ufrag : String
  password : String
deriving DecidableEq, Repr

/-- Random credentials: 8 characters of user name fragment and 24 of password. -/
def IceCredentials.random (e : Entropy) : IceCredentials × Entropy :=
  let (ufrag, e) := e.text 8
  let (password, e) := e.text 24
  (⟨ufrag, password⟩, e)

/-! ## Parts of a candidate -/

/-- The transport protocol of a candidate. -/
inductive TransportProtocol where
  | udp
  | tcp
deriving DecidableEq, Repr, Hashable

namespace TransportProtocol

def text : TransportProtocol → String
  | udp => "udp"
  | tcp => "tcp"

/-- The protocol of a text in any case. -/
def ofText? (s : String) : Option TransportProtocol :=
  if Text.lower s = "udp" then some udp
  else if Text.lower s = "tcp" then some tcp
  else none

end TransportProtocol

/-- How a candidate was found. -/
inductive CandidateKind where
  /-- A local interface. -/
  | host
  /-- Seen by the peer during checks. -/
  | peerReflexive
  /-- Seen by a server. -/
  | serverReflexive
  /-- An address of a relay. -/
  | relayed
deriving DecidableEq, Repr, Hashable

namespace CandidateKind

def text : CandidateKind → String
  | host => "host"
  | peerReflexive => "prflx"
  | serverReflexive => "srflx"
  | relayed => "relay"

def all : List CandidateKind := [host, peerReflexive, serverReflexive, relayed]

end CandidateKind

/-! ## Candidates -/

/-- An ICE candidate. -/
structure Candidate where
  /-- The name by which similar candidates are grouped. -/
  foundation : String
  /-- 1 for RTP, 2 for RTCP. -/
  component : UInt16
  protocol : TransportProtocol
  priority : UInt32
  /-- The address of the candidate. -/
  address : SocketAddress
  /-- How it was found. -/
  kind : CandidateKind
  /-- The base of a reflexive or relayed candidate. -/
  related : Option SocketAddress
  /-- The user name fragment it belongs to. -/
  ufrag : Option String
deriving DecidableEq, Repr

namespace Candidate

/-- The priority of a host candidate: type preference 126 and the greatest local preference. -/
def hostPriority (component : UInt16) : UInt32 :=
  UInt32.ofNat ((126 <<< 24) + (65535 <<< 8) + (256 - component.toNat))

/-- Why there is no host candidate for a socket. -/
inductive HostError where
  /-- No peer can reach the address. -/
  | unreachable (ip : IpAddress)
  /-- The component is neither RTP nor RTCP. -/
  | component (id : UInt16)
deriving DecidableEq, Repr

def HostError.text : HostError → String
  | unreachable ip => "invalid host candidate address: " ++ ip.text
  | component id => "invalid component id: " ++ Numeral.decimal id.toNat

section Host

variable [Hashable (CandidateKind × IpAddress × TransportProtocol)]

/-- The foundation of candidates of a kind at an address: the low 32 bits of a hash, in decimal. -/
def foundationOf (kind : CandidateKind) (ip : IpAddress) (protocol : TransportProtocol) : String :=
  Numeral.decimal (hash (kind, ip, protocol)).toUInt32.toNat

/-- The host candidate of a local socket. -/
def host (address : SocketAddress) (protocol : TransportProtocol) (component : UInt16) :
    Except HostError Candidate :=
  if !address.ip.isReachable then .error (.unreachable address.ip)
  else if component ≠ 1 ∧ component ≠ 2 then .error (.component component)
  else .ok {
    foundation := foundationOf .host address.ip protocol
    component := component
    protocol := protocol
    priority := hostPriority component
    address := address
    kind := .host
    related := none
    ufrag := none }

end Host

/-! ## Writing -/

/-- The written form of a candidate, as it follows `a=` in a description. -/
def text (c : Candidate) : String :=
  let main := "candidate:" ++ c.foundation ++ " " ++ Numeral.decimal c.component.toNat ++ " " ++
    c.protocol.text ++ " " ++ Numeral.decimal c.priority.toNat ++ " " ++ c.address.ip.text ++ " " ++
    Numeral.decimal c.address.port.toNat ++ " typ " ++ c.kind.text
  let related :=
    match c.related with
    | some r => " raddr " ++ r.ip.text ++ " rport " ++ Numeral.decimal r.port.toNat
    | none => ""
  let ufrag :=
    match c.ufrag with
    | some u => " ufrag " ++ u
    | none => ""
  main ++ related ++ ufrag

end Candidate

end OfferAnswer
