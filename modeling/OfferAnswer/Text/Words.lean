/-!
# Words of a text

Cutting text at a separator, trimming blanks, and the comparisons that protocol texts are matched
with. All of them work on characters in order; the `String` versions below only convert.

Blank is a property of Unicode (`White_Space`), not the ASCII class: a candidate text may arrive
with any of these characters around it.
-/

namespace OfferAnswer.Text

/-! ## Cutting -/

/-- The pieces between the separators. There is one more piece than there are separators, so the
empty text has one empty piece. -/
def splitAt (sep : Char) : List Char → List (List Char)
  | [] => [[]]
  | c :: cs =>
    if c = sep then [] :: splitAt sep cs
    else
      match splitAt sep cs with
      | [] => [[c]]
      | w :: ws => (c :: w) :: ws

/-- The text before the first separator; all of it when there is none. -/
def before (sep : Char) (cs : List Char) : List Char := cs.takeWhile (· ≠ sep)

/-- The text after the first separator; nothing when there is none. -/
def after (sep : Char) (cs : List Char) : List Char := (cs.dropWhile (· ≠ sep)).drop 1

/-- The text with `lead` taken off its front, if it is there. -/
def stripLead : List Char → List Char → Option (List Char)
  | [], cs => some cs
  | _ :: _, [] => none
  | p :: ps, c :: cs => if p = c then stripLead ps cs else none

/-- Whether `part` stands somewhere in the text. -/
def hasPart (part : List Char) : List Char → Bool
  | [] => part.isEmpty
  | c :: cs => part.isPrefixOf (c :: cs) || hasPart part cs

/-- Pieces joined with a separator between them. -/
def joinWith (sep : List Char) : List (List Char) → List Char
  | [] => []
  | [w] => w
  | w :: v :: ws => w ++ sep ++ joinWith sep (v :: ws)

/-! ## Blanks -/

/-- Whether a character is white space in Unicode. -/
def isBlank (c : Char) : Bool :=
  let n := c.toNat
  (0x09 ≤ n && n ≤ 0x0D) || n == 0x20 || n == 0x85 || n == 0xA0 || n == 0x1680 ||
    (0x2000 ≤ n && n ≤ 0x200A) || n == 0x2028 || n == 0x2029 || n == 0x202F || n == 0x205F ||
    n == 0x3000

/-- The text without the blanks around it. -/
def trim (cs : List Char) : List Char :=
  ((cs.dropWhile isBlank).reverse.dropWhile isBlank).reverse

/-! ## Words of a line -/

/-- Whether a character may stand in a word of a line: all but a space and the line ends. -/
def isWordChar (c : Char) : Bool := c ≠ ' ' && c ≠ '\r' && c ≠ '\n'

/-- Reads a word from the front of a text: at least one character. -/
def readWord (cs : List Char) : Option (List Char × List Char) :=
  if cs.takeWhile isWordChar = [] then none
  else some (cs.takeWhile isWordChar, cs.dropWhile isWordChar)

/-! ## Texts as strings -/

/-- The part of `s` before its first space; all of it when there is none. -/
def firstWord (s : String) : String := String.ofList (before ' ' s.toList)

/-- The part of `s` after its first space; empty when there is none. -/
def afterFirstWord (s : String) : String := String.ofList (after ' ' s.toList)

/-- Whether `part` stands somewhere in `s`. -/
def contains (s part : String) : Bool := hasPart part.toList s.toList

/-- Whether `s` starts with `lead`. -/
def startsWith (s lead : String) : Bool := lead.toList.isPrefixOf s.toList

/-- The text `s` with `lead` taken off its front, if it is there. -/
def dropLead? (s lead : String) : Option String :=
  (stripLead lead.toList s.toList).map String.ofList

/-- Letters A to Z in lower case, all else as it is. -/
def lower (s : String) : String := String.ofList (s.toList.map Char.toLower)

/-- Whether two texts agree when the case of the letters A to Z is ignored. -/
def sameIgnoringCase (s t : String) : Bool := lower s == lower t

/-- Texts joined with a separator between them. -/
def join (sep : String) (ws : List String) : String :=
  String.ofList (joinWith sep.toList (ws.map String.toList))

end OfferAnswer.Text
