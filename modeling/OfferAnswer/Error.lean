import OfferAnswer.Sdp.Description

/-!
# Errors

What can go wrong while negotiating, by who is to blame: a section, a parameter, the remote
description, or the caller's timing. Errors that concern one section only do not fail an answer;
they reject the section in its place.
-/

namespace OfferAnswer

/-- Where a session is in the exchange of offer and answer. -/
inductive NegotiationState where
  /-- Nothing exchanged yet. -/
  | new
  /-- Our offer is out, its answer awaited. -/
  | offerGenerated
  /-- A remote offer is being answered. -/
  | offerReceived
  /-- The answer to our offer was applied. -/
  | answerProcessed
  /-- We answered a remote offer. -/
  | answerGenerated
  /-- Negotiated, and the connection is up. -/
  | established
  /-- Closed for good. -/
  | closed
deriving DecidableEq, Repr

def NegotiationState.name : NegotiationState → String
  | new => "New"
  | offerGenerated => "OfferGenerated"
  | offerReceived => "OfferReceived"
  | answerProcessed => "AnswerProcessed"
  | answerGenerated => "AnswerGenerated"
  | established => "Established"
  | closed => "Closed"

/-- What is wrong with a description. -/
inductive DescriptionError where
  /-- It cannot be read. -/
  | unreadable (detail : String)
  /-- It breaks a rule of structure. -/
  | inconsistent (detail : String)
deriving DecidableEq, Repr

def DescriptionError.text : DescriptionError → String
  | unreadable detail => "SDP parse: " ++ detail
  | inconsistent detail => "SDP inconsistent: " ++ detail

def Description.Inconsistency.error (e : Description.Inconsistency) : DescriptionError :=
  .inconsistent e.text

/-- Why an operation failed. -/
inductive NegotiationError where
  /-- A kind of media is not handled, or a section has nothing usable. -/
  | invalidMedia (detail : String)
  /-- The protocol of a section is not handled. -/
  | invalidProtocol (proto : String)
  /-- A parameter is missing or has a bad value. -/
  | invalidParameter (detail : String)
  /-- A section could not be built. -/
  | unexpected (detail : String)
  /-- Every port of a range is in use. -/
  | noPorts (min max : UInt16)
  /-- Something did not happen in time. -/
  | timeout
  /-- The remote description breaks the rules of offer and answer. -/
  | remote (detail : String)
  /-- The operation has no place in the current state. -/
  | wrongState (operation : String) (state : NegotiationState)
  /-- A description is at fault. -/
  | description (e : DescriptionError)
deriving DecidableEq, Repr

namespace NegotiationError

def text : NegotiationError → String
  | invalidMedia detail => "invalid media: " ++ detail
  | invalidProtocol proto => "invalid protocol: " ++ proto
  | invalidParameter detail => "invalid parameter: " ++ detail
  | unexpected detail => "unexpected: " ++ detail
  | noPorts min max =>
    "no ports available in [" ++ Numeral.decimal min.toNat ++ ", " ++ Numeral.decimal max.toNat ++
      "]"
  | timeout => "timeout"
  | remote detail => "remote sdp: " ++ detail
  | wrongState operation state => operation ++ " not allowed in state " ++ state.name
  | description e => e.text

/-- Whether the error concerns one section only. -/
def isSectionLocal : NegotiationError → Bool
  | invalidMedia _ | invalidProtocol _ | invalidParameter _ | noPorts _ _ => true
  | _ => false

end NegotiationError

end OfferAnswer
