import OfferAnswer.Json.Value
import OfferAnswer.Text.Numeral
import OfferAnswer.Text.Words

/-!
# Writing JSON

The compact written form: no blanks, members in their order, and only those characters escaped that
have to be, by a letter where there is one. A string without a text is written as the empty string.
-/

namespace OfferAnswer.Json

/-- The letter that stands for a character behind a backslash, if there is one. -/
def escapeLetter? (c : Char) : Option Char :=
  match c with
  | '"' => some '"'
  | '\\' => some '\\'
  | '\x08' => some 'b'
  | '\x0c' => some 'f'
  | '\n' => some 'n'
  | '\r' => some 'r'
  | '\t' => some 't'
  | _ => none

/-- The written form of a character inside a string. -/
def escape (c : Char) : List Char :=
  match escapeLetter? c with
  | some e => ['\\', e]
  | none =>
    if c.toNat < 0x20 then
      ['\\', 'u', '0', '0', Numeral.hexChar (c.toNat / 16), Numeral.hexChar (c.toNat % 16)]
    else [c]

def quote (s : String) : String :=
  "\"" ++ String.ofList (s.toList.flatMap escape) ++ "\""

def numberText (n : JsonNumber) : String :=
  let digits (ds : List Nat) : String := String.ofList (ds.map Numeral.decimalChar)
  let exponent :=
    match n.exponent with
    | some e => (if e < 0 then "e-" else "e") ++ Numeral.decimal e.natAbs
    | none => ""
  (if n.negative then "-" else "") ++ digits n.whole ++
    (if n.fraction.isEmpty then "" else "." ++ digits n.fraction) ++ exponent

mutual

def text : Json → String
  | .null => "null"
  | .bool true => "true"
  | .bool false => "false"
  | .number n => numberText n
  | .string s => quote (s.getD "")
  | .array items => "[" ++ Text.join "," (itemTexts items) ++ "]"
  | .object members => "\x7b" ++ Text.join "," (memberTexts members) ++ "\x7d"

/-- The written forms of items. -/
def itemTexts : List Json → List String
  | [] => []
  | v :: vs => text v :: itemTexts vs

/-- The written forms of members. -/
def memberTexts : List (Option String × Json) → List String
  | [] => []
  | (k, v) :: vs => (quote (k.getD "") ++ ":" ++ text v) :: memberTexts vs

end

end OfferAnswer.Json
