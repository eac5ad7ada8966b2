import OfferAnswer.Ice.Candidate

/-!
# Reading a candidate

The text of a candidate is a fixed sequence of words: `candidate:` and the foundation, component,
protocol, priority, address, port, `typ` and the kind. Optional parts follow in one order only:
`tcptype`, `raddr` with `rport`, `generation`, `network-id`, `ufrag`, `network-cost`. Those that a
candidate does not keep are read and dropped. Nothing may follow.

Once the name of an optional part is there, its value must follow; otherwise the text is refused
rather than read as if the part were absent.
-/

namespace OfferAnswer.Candidate

/-- Reads a fixed text. -/
def readFixed (s : String) (cs : List Char) : Option (List Char) := Text.stripLead s.toList cs

/-- Reads a word and takes its value. -/
def readValue {α : Type} (value : List Char → Option α) (cs : List Char) :
    Option (α × List Char) := do
  let (w, cs) ← Text.readWord cs
  return (← value w, cs)

/-- Reads the kind. A kind is a prefix of what follows, so it need not end a word. -/
def readKind (cs : List Char) : Option (CandidateKind × List Char) :=
  CandidateKind.all.findSome? fun k ↦ (readFixed k.text cs).map (k, ·)

/-- Reads a part that is named by `lead`, if it is there. -/
def readPart {α : Type} (lead : String) (body : List Char → Option (α × List Char))
    (cs : List Char) : Option (Option α × List Char) :=
  match readFixed lead cs with
  | none => some (none, cs)
  | some cs => (body cs).map fun (a, cs) ↦ (some a, cs)

/-- Reads the address and port of a related candidate. -/
def readRelated (cs : List Char) : Option (SocketAddress × List Char) := do
  let (ip, cs) ← readValue IpAddress.ofChars? cs
  let cs ← readFixed " rport " cs
  let (port, cs) ← readValue Numeral.readUInt16 cs
  return ({ ip := ip, port := port }, cs)

/-- Reads a candidate that is the whole text. -/
def read (cs : List Char) : Option Candidate := do
  let cs ← readFixed "candidate:" cs
  let (foundation, cs) ← Text.readWord cs
  let cs ← readFixed " " cs
  let (component, cs) ← readValue Numeral.readUInt16 cs
  let cs ← readFixed " " cs
  let (protocol, cs) ← readValue (fun w ↦ TransportProtocol.ofText? (String.ofList w)) cs
  let cs ← readFixed " " cs
  let (priority, cs) ← readValue Numeral.readUInt32 cs
  let cs ← readFixed " " cs
  let (ip, cs) ← readValue IpAddress.ofChars? cs
  let cs ← readFixed " " cs
  let (port, cs) ← readValue Numeral.readUInt16 cs
  let cs ← readFixed " typ " cs
  let (kind, cs) ← readKind cs
  let (_, cs) ← readPart " tcptype " Text.readWord cs
  let (related, cs) ← readPart " raddr " readRelated cs
  let (_, cs) ← readPart " generation " Text.readWord cs
  let (_, cs) ← readPart " network-id " Text.readWord cs
  let (ufrag, cs) ← readPart " ufrag " Text.readWord cs
  let (_, cs) ← readPart " network-cost " Text.readWord cs
  if cs ≠ [] then none
  return {
    foundation := String.ofList foundation
    component := component
    protocol := protocol
    priority := priority
    address := { ip := ip, port := port }
    kind := kind
    related := related
    ufrag := ufrag.map String.ofList }

/-- Reads a candidate in its written form. Blanks around it and `a=` in front are taken. -/
def ofText? (s : String) : Option Candidate :=
  let cs := Text.trim s.toList
  read ((Text.stripLead "a=".toList cs).getD cs)

end OfferAnswer.Candidate
