import OfferAnswer.Config.Json
import OfferAnswer.Json.Ident
import OfferAnswer.Json.Writer
import OfferAnswer.Proofs.Config.RoundTrip
import OfferAnswer.Proofs.Connection.Announcements
import OfferAnswer.Proofs.Connection.Consolidation
import OfferAnswer.Proofs.Correlation.History
import OfferAnswer.Proofs.Correlation.Reentrancy
import OfferAnswer.Proofs.Dtls.RoundTrip
import OfferAnswer.Proofs.Handler.Anonymity
import OfferAnswer.Proofs.Handler.Intersection
import OfferAnswer.Proofs.Handler.Restating
import OfferAnswer.Proofs.Ice.RoundTrip
import OfferAnswer.Proofs.Ip.RoundTrip
import OfferAnswer.Proofs.Json.RoundTrip
import OfferAnswer.Proofs.Rtcp.Bounds
import OfferAnswer.Proofs.Rtcp.Estimates
import OfferAnswer.Proofs.Sdp.Edits
import OfferAnswer.Proofs.Sdp.Envelope
import OfferAnswer.Proofs.Sdp.Fields
import OfferAnswer.Proofs.Sdp.Lines
import OfferAnswer.Proofs.Sdp.RoundTrip
import OfferAnswer.Proofs.Session.Agreement
import OfferAnswer.Proofs.Session.Atomic
import OfferAnswer.Proofs.Session.Bundling
import OfferAnswer.Proofs.Session.Carriage
import OfferAnswer.Proofs.Session.Closing
import OfferAnswer.Proofs.Session.Directions
import OfferAnswer.Proofs.Session.FirstRound
import OfferAnswer.Proofs.Session.Holding
import OfferAnswer.Proofs.Session.Identity
import OfferAnswer.Proofs.Session.LateEvents
import OfferAnswer.Proofs.Session.Listening
import OfferAnswer.Proofs.Session.Mirroring
import OfferAnswer.Proofs.Session.Persistence
import OfferAnswer.Proofs.Session.Phases
import OfferAnswer.Proofs.Session.Places
import OfferAnswer.Proofs.Session.Positional
import OfferAnswer.Proofs.Session.Reanswering
import OfferAnswer.Proofs.Session.Refusals
import OfferAnswer.Proofs.Session.Renegotiation
import OfferAnswer.Proofs.Session.Reoffering
import OfferAnswer.Proofs.Session.Repetition
import OfferAnswer.Proofs.Session.Resolution
import OfferAnswer.Proofs.Session.Rewriting
import OfferAnswer.Proofs.Session.Roles
import OfferAnswer.Proofs.Session.Rounds
import OfferAnswer.Proofs.Session.Routing
import OfferAnswer.Proofs.Session.Standing
import OfferAnswer.Proofs.Session.Versions
import OfferAnswer.Proofs.Transport.Exhaustion
import OfferAnswer.Proofs.Transport.Fleet
import OfferAnswer.Proofs.Transport.Ownership
import OfferAnswer.Sdp.Envelope
import OfferAnswer.Session.Run
