/-!
# Numeric identifiers

The numbers that name things on the wire, at the width they have there, and the number that names
an endpoint within a session and is never written.
-/

namespace OfferAnswer

/-- The identifier of a synchronization source. -/
abbrev Ssrc := UInt32

/-- An RTP payload type. -/
abbrev PayloadType := UInt8

/-- The identifier of a session, as written in the origin line. -/
abbrev SessionId := UInt64

/-- The identifier of a transport endpoint within its session. Identifiers count up from 1 and have
no bound here; in 32 bits they are the same as long as fewer than `2 ^ 32 - 1` endpoints were
made. -/
abbrev EndpointId := Nat

end OfferAnswer
