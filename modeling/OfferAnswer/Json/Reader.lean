import OfferAnswer.Json.Value
import OfferAnswer.Text.Numeral

/-!
# Reading JSON

The strict grammar: no comments, no trailing commas, no leading zeros, no control characters in
strings, and only spaces, tabs and line ends between tokens.

Members are read one at a time and what was read survives a later error. A reader that looks at
members as they come can so tell a repeated key from a broken text, whichever comes first.
-/

namespace OfferAnswer.Json

/-! ## Tokens -/

/-- Whether a character may stand between tokens. -/
def isSpace (c : Char) : Bool := c = ' ' || c = '\n' || c = '\t' || c = '\r'

/-- The text from its next token on. -/
def skip (cs : List Char) : List Char := cs.dropWhile isSpace

/-- Reads a run of digits, at least one. -/
def readDigitRun (cs : List Char) : Option (List Char × List Char) :=
  if cs.takeWhile Char.isDigit = [] then none
  else some (cs.takeWhile Char.isDigit, cs.dropWhile Char.isDigit)

/-- Reads the digits before the point: a zero stands alone. -/
def readWhole (cs : List Char) : Option (List Char × List Char) := do
  let (ds, rest) ← readDigitRun cs
  if ds.head? = some '0' ∧ 1 < ds.length then none
  return (ds, rest)

/-- Reads a point and the digits after it, if a point is there. -/
def readFraction : List Char → Option (List Char × List Char)
  | '.' :: cs => readDigitRun cs
  | cs => some ([], cs)

/-- Reads the digits of an exponent with their sign. -/
def readExponentDigits : List Char → Option (Int × List Char)
  | '-' :: cs => (readDigitRun cs).map fun (ds, cs) ↦ (-(Numeral.decimalValue ds : Int), cs)
  | '+' :: cs => (readDigitRun cs).map fun (ds, cs) ↦ ((Numeral.decimalValue ds : Int), cs)
  | cs => (readDigitRun cs).map fun (ds, cs) ↦ ((Numeral.decimalValue ds : Int), cs)

def readExponent : List Char → Option (Option Int × List Char)
  | 'e' :: cs => (readExponentDigits cs).map fun (n, cs) ↦ (some n, cs)
  | 'E' :: cs => (readExponentDigits cs).map fun (n, cs) ↦ (some n, cs)
  | cs => some (none, cs)

def readNumber (cs : List Char) : Option (JsonNumber × List Char) := do
  let negative := cs.head? = some '-'
  let (whole, cs) ← readWhole (if negative then cs.drop 1 else cs)
  let (fraction, cs) ← readFraction cs
  let (exponent, cs) ← readExponent cs
  return ({
    negative := negative
    whole := whole.map Numeral.digitValue
    fraction := fraction.map Numeral.digitValue
    exponent := exponent }, cs)

/-! ## Strings -/

/-- A piece of a string: a character, or a 16-bit unit given by its number. -/
inductive Piece where
  | char (c : Char)
  /-- A unit of an escape. -/
  | unit (n : Nat)

/-- The number of four hexadecimal digits. -/
def readUnit (a b c d : Char) : Option Nat := do
  let a ← Numeral.hexValue? a
  let b ← Numeral.hexValue? b
  let c ← Numeral.hexValue? c
  let d ← Numeral.hexValue? d
  return ((a * 16 + b) * 16 + c) * 16 + d

/-- The character of a one-letter escape. -/
def escaped? (c : Char) : Option Char :=
  match c with
  | '"' => some '"'
  | '\\' => some '\\'
  | '/' => some '/'
  | 'b' => some '\x08'
  | 'f' => some '\x0c'
  | 'n' => some '\n'
  | 'r' => some '\r'
  | 't' => some '\t'
  | _ => none

/-- Reads the pieces of a string up to its closing quote. -/
def readPieces : List Char → Option (List Piece × List Char)
  | '"' :: cs => some ([], cs)
  | '\\' :: 'u' :: a :: b :: c :: d :: cs => do
    let n ← readUnit a b c d
    let (ps, cs) ← readPieces cs
    return (.unit n :: ps, cs)
  | '\\' :: e :: cs => do
    let c ← escaped? e
    let (ps, cs) ← readPieces cs
    return (.char c :: ps, cs)
  | c :: cs =>
    if c.toNat < 0x20 then none
    else do
      let (ps, cs) ← readPieces cs
      return (.char c :: ps, cs)
  | [] => none

/-- Whether a unit is the first half of a surrogate pair. -/
def isHigh (n : Nat) : Bool := 0xD800 ≤ n && n ≤ 0xDBFF

/-- Whether a unit is the second half of a surrogate pair. -/
def isLow (n : Nat) : Bool := 0xDC00 ≤ n && n ≤ 0xDFFF

/-- The characters of pieces, if every surrogate has its partner. -/
def decodePieces : List Piece → Option (List Char)
  | [] => some []
  | .char c :: ps => (decodePieces ps).map (c :: ·)
  | .unit h :: .unit l :: ps =>
    if isHigh h && isLow l then
      (decodePieces ps).map (Char.ofNat (0x10000 + (h - 0xD800) * 0x400 + (l - 0xDC00)) :: ·)
    else if isHigh h || isLow h then none
    else (decodePieces (.unit l :: ps)).map (Char.ofNat h :: ·)
  | .unit n :: ps =>
    if isHigh n || isLow n then none else (decodePieces ps).map (Char.ofNat n :: ·)

/-- Reads a string after its opening quote. -/
def readString (cs : List Char) : Option (Option String × List Char) := do
  let (ps, cs) ← readPieces cs
  return ((decodePieces ps).map String.ofList, cs)

/-! ## Values -/

/-- How the members of an object ended. -/
inductive Ending where
  /-- With the closing brace; the text that follows it. -/
  | closed (rest : List Char)
  /-- Within a member, after its key. -/
  | cut (key : Option String)
  /-- Where a key or the closing brace should have been. -/
  | broken

/-- The members of an object as far as they could be read. -/
structure Scan where
  /-- The members, in order. -/
  members : List (Option String × Json)
  /-- What came after them. -/
  ending : Ending

/-- The text of the next key after its quote, if a member follows. -/
def nextKey (first : Bool) (cs : List Char) : Option (List Char) :=
  match skip cs with
  | '"' :: cs => if first then some cs else none
  | ',' :: cs =>
    if first then none
    else
      match skip cs with
      | '"' :: cs => some cs
      | _ => none
  | _ => none

/-- Passes over the colon between key and value. -/
def skipColon (cs : List Char) : Option (List Char) :=
  match skip cs with
  | ':' :: cs => some cs
  | _ => none

mutual

/-- Reads a value. The fuel bounds the steps; twice the length of the text suffices. -/
def readValue : (fuel : Nat) → List Char → Option (Json × List Char)
  | 0, _ => none
  | fuel + 1, cs =>
    match skip cs with
    | 'n' :: 'u' :: 'l' :: 'l' :: cs => some (.null, cs)
    | 't' :: 'r' :: 'u' :: 'e' :: cs => some (.bool true, cs)
    | 'f' :: 'a' :: 'l' :: 's' :: 'e' :: cs => some (.bool false, cs)
    | '"' :: cs => (readString cs).map fun (s, cs) ↦ (.string s, cs)
    | '[' :: cs =>
      match skip cs with
      | ']' :: cs => some (.array [], cs)
      | cs => (readItems fuel cs).map fun (vs, cs) ↦ (.array vs, cs)
    | '\x7b' :: cs =>
      match readMembers fuel true cs with
      | ⟨ms, .closed cs⟩ => some (.object ms, cs)
      | _ => none
    | cs => (readNumber cs).map fun (n, cs) ↦ (.number n, cs)

/-- Reads the items of an array, at least one, and its end. -/
def readItems : (fuel : Nat) → List Char → Option (List Json × List Char)
  | 0, _ => none
  | fuel + 1, cs =>
    match readValue fuel cs with
    | none => none
    | some (v, cs) =>
      match skip cs with
      | ']' :: cs => some ([v], cs)
      | ',' :: cs => (readItems fuel cs).map fun (vs, cs) ↦ (v :: vs, cs)
      | _ => none

/-- Reads the members of an object and its end. -/
def readMembers : (fuel : Nat) → (first : Bool) → List Char → Scan
  | 0, _, _ => ⟨[], .broken⟩
  | fuel + 1, first, cs =>
    match skip cs with
    | '\x7d' :: cs => ⟨[], .closed cs⟩
    | cs =>
      match (nextKey first cs).bind readString with
      | none => ⟨[], .broken⟩
      | some (key, cs) =>
        match (skipColon cs).bind (readValue fuel) with
        | none => ⟨[], .cut key⟩
        | some (v, cs) =>
          let more := readMembers fuel false cs
          { more with members := (key, v) :: more.members }

end

/-- The fuel that a text needs. -/
def fuelFor (cs : List Char) : Nat := 2 * cs.length + 2

/-- The value that is the whole text, blanks around it aside. -/
def ofChars? (cs : List Char) : Option Json :=
  match readValue (fuelFor cs) cs with
  | some (v, rest) => if skip rest = [] then some v else none
  | none => none

/-- The value that is the whole text, blanks around it aside. -/
def ofText? (s : String) : Option Json := ofChars? s.toList

/-- The members of the object that a text starts with, if it starts with one. -/
def scanObject? (s : String) : Option Scan :=
  match skip s.toList with
  | '\x7b' :: cs => some (readMembers (fuelFor cs) true cs)
  | _ => none

end OfferAnswer.Json
