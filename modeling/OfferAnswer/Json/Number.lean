import OfferAnswer.Text.Numeral

/-!
# JSON numbers

A number as it was written, digit by digit. Digits alone are a natural number; any other number is
only ever judged by whether a double can hold it.

## How a number becomes a double

Three steps round, one after the other. The leading digits that fit into 64 bits are taken and the
others only counted; the number that they make is rounded to a double; and so is its product with
the double nearest to a power of ten. Just below the range's end this refuses numbers that the
nearest double could still hold, and just above it takes some that it could not. All of it is
done in natural numbers here: a number with a negative power of ten is less than 64 bits can hold,
so only the other powers matter.
-/

namespace OfferAnswer

/-- A JSON number as written. -/
structure JsonNumber where
  /-- Whether a minus sign stands in front. -/
  negative : Bool
  /-- The digits before the point. -/
  whole : List Nat
  /-- The digits after the point. -/
  fraction : List Nat
  /-- The exponent, if one is written. -/
  exponent : Option Int
deriving DecidableEq, Repr

namespace JsonNumber

/-- The number written as digits only. -/
def ofNat (n : Nat) : JsonNumber := ⟨false, Numeral.digits 10 n, [], none⟩

/-- The natural number that digits alone denote. -/
def toNat? (n : JsonNumber) : Option Nat :=
  if !n.negative && n.fraction.isEmpty && n.exponent.isNone then some (Numeral.value 10 n.whole)
  else none

/-! ## Leading digits -/

/-- Appends digits to a number while it fits into 64 bits. Returns the digits that are left, too. -/
def appendDigits (n : Nat) : List Nat → Nat × List Nat
  | [] => (n, [])
  | d :: ds => if n * 10 + d < UInt64.size then appendDigits (n * 10 + d) ds else (n, d :: ds)

/-- The number that the leading digits make, and the power of ten to multiply it with. The digits
after the point have a chance of their own: the first of them may fit where the last of the digits
before it did not. -/
def scaled (n : JsonNumber) : Nat × Int :=
  let (significand, dropped) := appendDigits 0 n.whole
  let (significand, rest) := appendDigits significand n.fraction
  (significand, n.exponent.getD 0 + dropped.length - (n.fraction.length - rest.length : Nat))

/-! ## Range -/

/-- The quotient rounded to the nearest natural number, a tie to the even one. -/
def roundQuotient (n unit : Nat) : Nat :=
  let q := n / unit
  let r := n % unit
  if unit < 2 * r ∨ (unit = 2 * r ∧ q % 2 = 1) then q + 1 else q

/-- The nearest number with no more than the 53 significant bits of a double. -/
def roundToDouble (n : Nat) : Nat :=
  let unit := Nat.pow 2 (n.log2 - 52)
  roundQuotient n unit * unit

/-- The least number of 53 significant bits that no double can hold. -/
def doubleEnd : Nat := Nat.pow 2 1024

/-- Whether the number becomes a double rather than infinity. -/
def isFinite (n : JsonNumber) : Bool :=
  let (significand, power) := n.scaled
  if significand = 0 ∨ power < 0 then true
  else if 308 < power then false
  else
    roundToDouble (roundToDouble significand * roundToDouble (Nat.pow 10 power.toNat)) < doubleEnd

end JsonNumber

end OfferAnswer
