import OfferAnswer.Sdp.Description

/-!
# Reading a description

A description is read line by line. A line is a type letter, an equals sign, a value and a line
end: carriage return and line feed, a line feed alone, or the end of the text. A line is read as a
whole or not at all, so the first line that does not fit ends the repetition it stands in and is
offered to the next part of the grammar.

The session part must have its version, origin, subject and time lines. Everything after them is
optional, and reading stops without complaint at the first line that fits nowhere: what follows
it is not part of the description.

One value is looser than its line. The type of a bandwidth line runs to the first colon, and it
runs over line ends on its way.
-/

namespace OfferAnswer.Sdp

/-- A step of reading: from a text to a value and the text that follows, or failure. -/
abbrev Reader (α : Type) := List Char → Option (α × List Char)

/-! ## Repetition and choice -/

/-- Reads as often as possible. -/
def many {α : Type} (item : Reader α) (cs : List Char) : List α × List Char :=
  match item cs with
  | none => ([], cs)
  | some (a, rest) =>
    if rest.length < cs.length then
      let (as, rest) := many item rest
      (a :: as, rest)
    else ([a], rest)
termination_by cs.length

/-- Reads once if possible. -/
def maybe {α : Type} (item : Reader α) (cs : List Char) : Option α × List Char :=
  match item cs with
  | none => (none, cs)
  | some (a, rest) => (some a, rest)

/-- Reads one given character. -/
def readChar (c : Char) : List Char → Option (List Char)
  | d :: cs => if d = c then some cs else none
  | [] => none

/-- Reads the characters of a class, at least one. -/
def readSome (p : Char → Bool) : Reader (List Char) := fun cs ↦
  if cs.takeWhile p = [] then none else some (cs.takeWhile p, cs.dropWhile p)

/-! ## Lines -/

/-- Whether a character is within a line. -/
def inLine (c : Char) : Bool := c ≠ '\r' && c ≠ '\n'

def readLineEnd : List Char → Option (List Char)
  | '\r' :: '\n' :: cs => some cs
  | '\n' :: cs => some cs
  | [] => some []
  | _ => none

/-- Reads a line whose type is one of `types`. -/
def readLine {α : Type} (types : List Char) (body : Reader α) : Reader α
  | t :: '=' :: cs =>
    if t ∈ types then do
      let (a, cs) ← body cs
      let cs ← readLineEnd cs
      return (a, cs)
    else none
  | _ => none

/-- Reads the rest of the line, at least one character. -/
def readAny : Reader (List Char) := readSome inLine

/-- Reads a number of decimal digits below a bound. -/
def readNumber (bound : Nat) : Reader Nat := fun cs ↦ do
  let (ds, cs) ← readSome Char.isDigit cs
  return (← Numeral.readDigits bound ds, cs)

/-! ## The session part -/

/-- Reads a version line. Version 0 is the only one. -/
def readVersion : Reader Unit := readLine ['v'] fun cs ↦ (readChar '0' cs).map ((), ·)

/-- Reads an origin line, for the session id and version. -/
def readOrigin : Reader (UInt64 × UInt64) := readLine ['o'] fun cs ↦ do
  let (_, cs) ← Text.readWord cs
  let cs ← readChar ' ' cs
  let (id, cs) ← readNumber UInt64.size cs
  let cs ← readChar ' ' cs
  let (version, cs) ← readNumber UInt64.size cs
  let cs ← readChar ' ' cs
  let (_, cs) ← readAny cs
  return ((UInt64.ofNat id, UInt64.ofNat version), cs)

def readBandwidth : Reader Bandwidth := readLine ['b'] fun cs ↦ do
  let (type, cs) ← readSome (· ≠ ':') cs
  let cs ← readChar ':' cs
  let (value, cs) ← readAny cs
  return (⟨String.ofList type, String.ofList value⟩, cs)

/-- Whether a character may stand in an attribute key. -/
def inKey (c : Char) : Bool := c ≠ ':' && inLine c

def readAttribute : Reader Attribute := readLine ['a'] fun cs ↦ do
  let (key, cs) ← readSome inKey cs
  match cs with
  | ':' :: cs =>
    return (⟨String.ofList key, some (String.ofList (cs.takeWhile inLine))⟩, cs.dropWhile inLine)
  | cs => return (⟨String.ofList key, none⟩, cs)

def readSession : Reader SessionPart := fun cs ↦ do
  let (_, cs) ← readVersion cs
  let ((id, version), cs) ← readOrigin cs
  let (_, cs) ← readLine ['s'] readAny cs
  let (_, cs) := many (readLine ['i', 'u', 'e', 'p', 'c', 'z', 'k'] readAny) cs
  let (bandwidth, cs) := maybe readBandwidth cs
  let (_, cs) ← readLine ['t'] readAny cs
  let (_, cs) := many (readLine ['r'] readAny) cs
  let (attrs, cs) := many readAttribute cs
  return (⟨id, version, bandwidth, attrs⟩, cs)

/-! ## Sections -/

/-- Reads a port, and passes over a number of ports. -/
def readPort : Reader UInt16 := fun cs ↦ do
  let (ds, cs) ← readSome Char.isDigit cs
  let cs ←
    match cs with
    | '/' :: cs => (readSome Char.isDigit cs).map (·.2)
    | cs => some cs
  return (UInt16.ofNat (← Numeral.readDigits UInt16.size ds), cs)

/-- Reads a space and a word. -/
def readNextWord : Reader (List Char) := fun cs ↦ do
  let cs ← readChar ' ' cs
  Text.readWord cs

def readMedia : Reader Section := readLine ['m'] fun cs ↦ do
  let (kind, cs) ← Text.readWord cs
  let cs ← readChar ' ' cs
  let (port, cs) ← readPort cs
  let (proto, cs) ← readNextWord cs
  let (formats, cs) := many readNextWord cs
  return ({
    kind := MediaKind.ofName (String.ofList kind)
    port := port
    proto := String.ofList proto
    formats := formats.map String.ofList }, cs)

def readSection : Reader Section := fun cs ↦ do
  let (m, cs) ← readMedia cs
  let (_, cs) := many (readLine ['i'] readAny) cs
  let (connection, cs) := maybe (readLine ['c'] readAny) cs
  let (bandwidth, cs) := maybe readBandwidth cs
  let (attrs, cs) := many readAttribute cs
  return ({ m with
    connection := connection.map String.ofList
    bandwidth := bandwidth
    attrs := attrs }, cs)

/-! ## Descriptions -/

/-- Reads a description from the front of a text. -/
def readDescription : Reader Description := fun cs ↦ do
  let (session, cs) ← readSession cs
  let (sections, cs) := many readSection cs
  return (⟨session, sections⟩, cs)

end OfferAnswer.Sdp

namespace OfferAnswer.Description

/-- The description that a text starts with. -/
def ofText? (s : String) : Option Description := (Sdp.readDescription s.toList).map (·.1)

end OfferAnswer.Description
