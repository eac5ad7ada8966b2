import OfferAnswer.Entropy
import OfferAnswer.Text.Numeral
import OfferAnswer.Text.Words

/-!
# Media identifiers

A `Mid` names one section of a description. It is 16 bytes, so that it can be compared and stored
at a fixed size: a name is cleaned to letters, digits and hyphens (anything else becomes an
underscore), cut to 16 characters and padded with spaces.

Cleaning and cutting lose information. Two names that differ only in a cleaned character, or only
after the sixteenth, have the same `Mid`.
-/

namespace OfferAnswer

/-- The identifier of a section: 16 bytes. -/
structure Mid where
  /-- The bytes, padded with spaces at the end. -/
  bytes : List UInt8
  /-- There are 16 of them. -/
  length_eq : bytes.length = 16
deriving DecidableEq

namespace Mid

/-! ## Names -/

/-- The byte that a character of a name is kept as. -/
def byteOf (c : Char) : UInt8 := if c.isAlphanum || c = '-' then UInt8.ofNat c.toNat else 95

/-- Bytes cut or padded with spaces to 16. -/
def fit (bs : List UInt8) : List UInt8 := (bs ++ List.replicate 16 32).take 16

theorem length_fit (bs : List UInt8) : (fit bs).length = 16 := by
  simp [fit]

/-- The identifier of a name. -/
def ofText (s : String) : Mid := ⟨fit (s.toList.map byteOf), length_fit _⟩

/-- The identifier of the section at an index, for descriptions that give none. -/
def ofIndex (i : Nat) : Mid := ofText (Numeral.decimal i)

/-- The identifier of given bytes, if there are 16. -/
def ofBytes? (bs : List UInt8) : Option Mid :=
  if h : bs.length = 16 then some ⟨bs, h⟩ else none

/-- A random identifier of three characters. -/
def random (e : Entropy) : Mid × Entropy :=
  let (s, e) := e.text 3
  (ofText s, e)

/-! ## Texts -/

/-- The characters that bytes encode in UTF-8; none when they encode no text. -/
def decode (bs : List UInt8) : List Char :=
  if bs.all (· < 128) then bs.map fun b ↦ Char.ofNat b.toNat
  else ((String.fromUTF8? ⟨bs.toArray⟩).map String.toList).getD []

/-- The name: the text of the bytes without the padding. -/
def text (m : Mid) : String := String.ofList (Text.trim (decode m.bytes))

/-- The name in the form that error texts show. -/
def shown (m : Mid) : String := "Mid(" ++ m.text ++ ")"

/-! ## Order -/

/-- Whether one run of bytes comes before another or equals it. -/
def bytesLE : List UInt8 → List UInt8 → Bool
  | [], _ => true
  | _ :: _, [] => false
  | a :: as, b :: bs => a < b || (a == b && bytesLE as bs)

/-- The order by bytes. -/
def le (a b : Mid) : Bool := bytesLE a.bytes b.bytes

end Mid

end OfferAnswer
