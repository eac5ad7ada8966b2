import OfferAnswer.Text.Numeral
import OfferAnswer.Text.Words

/-!
# Certificate fingerprints

A fingerprint is written as the name of a hash function, a space, and the digest as pairs of
upper case hexadecimal digits with colons between them. Reading takes either case and needs at
least one byte; the name is any text without space, carriage return and line feed.
-/

namespace OfferAnswer

/-- The digest of a certificate. -/
structure Fingerprint where
  /-- The hash function, normally `sha-256`. -/
  hash : String
  /-- The digest. -/
  bytes : List UInt8
deriving DecidableEq, Repr

namespace Fingerprint

def text (f : Fingerprint) : String :=
  f.hash ++ " " ++
    String.ofList (Text.joinWith [':'] (f.bytes.map Numeral.byteChars))

/-- Reads pairs of hexadecimal digits with colons between them, to the end of the text. -/
def readPairs : List Char → Option (List UInt8)
  | [h, l] => do
    let h ← Numeral.hexValue? h
    let l ← Numeral.hexValue? l
    return [UInt8.ofNat (16 * h + l)]
  | h :: l :: ':' :: rest => do
    let h ← Numeral.hexValue? h
    let l ← Numeral.hexValue? l
    return UInt8.ofNat (16 * h + l) :: (← readPairs rest)
  | _ => none

/-- Reads a fingerprint. -/
def ofText? (s : String) : Option Fingerprint :=
  match Text.readWord s.toList with
  | some (name, ' ' :: rest) => (readPairs rest).map fun bytes ↦ ⟨String.ofList name, bytes⟩
  | _ => none

end Fingerprint

end OfferAnswer
