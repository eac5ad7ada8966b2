import OfferAnswer.Session.Accept
import OfferAnswer.Session.Events
import OfferAnswer.Session.Offer

/-!
# Calls and runs

The operations of a session as data, so that a whole run can be spoken of. `Session.call` performs
one; `Session.Reachable` holds of what a built session can become by calls in any order, with any
shared ports in between, and by RTCP arriving at any time.

A session hands out its correlation table, and whoever has the table can call it. Of these calls
only the arrival of a buffer is among the steps here; the others (binding and unbinding from
outside, closing the table, taking buffers off its queues) are not.
-/

namespace OfferAnswer

/-- An operation on a session. -/
inductive SessionCall where
  /-- Make an offer. -/
  | offer
  /-- Answer a remote offer. -/
  | answer (offer : Description)
  /-- Apply the remote answer to our offer. -/
  | accept (answer : Description)
  /-- Add a candidate of ours. -/
  | localCandidate (c : Candidate)
  /-- Add a trickled remote candidate. -/
  | remoteCandidate (mid : Option Mid) (index : Option Nat) (line : String)
  | restartIce
  /-- A component changed its state. -/
  | ice (endpoint : EndpointId) (component : IceComponent) (state : IceState) (generation : Nat)
  /-- A DTLS handshake completed. -/
  | dtls (endpoint : EndpointId) (generation : Nat)
  | close

/-- What an operation returns. -/
inductive SessionResult where
  /-- A description of ours. -/
  | description (d : Description)
  /-- Whether something was new, or counted. -/
  | flag (b : Bool)
  | generation (n : Nat)
  /-- Nothing. -/
  | done
deriving DecidableEq

namespace Reply

/-- The reply with another form of its result. -/
def map {α β : Type} (f : α → β) (r : Reply α) : Reply β := ⟨r.result.map f, r.session, r.ports⟩

end Reply

namespace Session

/-- Performs an operation. -/
def call (s : Session) (ports : PortAllocator) : SessionCall → Reply SessionResult
  | .offer => (s.generateOffer ports).map .description
  | .answer d => (s.processOffer ports d).map .description
  | .accept d => (s.processAnswer ports d).map fun () ↦ .done
  | .localCandidate c => (s.addLocalCandidate ports c).map .flag
  | .remoteCandidate mid index line => (s.addRemoteCandidate ports mid index line).map .flag
  | .restartIce => (s.restartIce ports).map .generation
  | .ice endpoint component state generation =>
    (s.handleIce ports endpoint component state generation).map .flag
  | .dtls endpoint generation => (s.handleDtls ports endpoint generation).map .flag
  | .close => (s.close ports).map fun () ↦ .done

/-- What a session can become. Of the calls on its correlation table, which others have, too, only
the arrival of a buffer comes in between its operations. -/
inductive Reachable : Session → Prop where
  /-- A session as it was built. -/
  | build {config : SessionConfig} {e : Entropy} {s : Session} :
    Session.build config e = .ok s → Reachable s
  /-- A session after a call. -/
  | call {s : Session} (ports : PortAllocator) (c : SessionCall) :
    Reachable s → Reachable (s.call ports c).session
  /-- A session after a buffer arrived. -/
  | rtcp {s : Session} (buffer : Bytes) : Reachable s → Reachable (s.handleRtcp buffer).2

end Session

end OfferAnswer
