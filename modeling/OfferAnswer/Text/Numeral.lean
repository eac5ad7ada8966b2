/-!
# Numerals

Natural numbers as digits, in any base, and the two numeral texts of this library: decimal for
everything a description carries, hexadecimal for digests and address groups.

A decimal numeral is *read* more liberally than it is written. Writing gives the digits and no
leading zero; reading takes any non-empty run of digits whose value is below a bound, and
`readUnsigned` also takes one plus sign in front. Which of the two readers a field uses is part
of its format, so both are named here.
-/

namespace OfferAnswer.Numeral

/-! ## Digits -/

/-- The digits of `n`, most significant first. Zero has the one digit `0`; base 0 and base 1 are
read as base 2. -/
def digits (base n : Nat) : List Nat :=
  if n < max base 2 then [n]
  else digits base (n / max base 2) ++ [n % max base 2]
termination_by n
decreasing_by exact Nat.div_lt_self (by omega) (by omega)

/-- The number that a run of digits denotes. -/
def value (base : Nat) (ds : List Nat) : Nat :=
  ds.foldl (fun acc d ↦ acc * base + d) 0

/-! ## Decimal text -/

def decimalChar (d : Nat) : Char := Char.ofNat (48 + d)

/-- The decimal numeral of `n` as characters. -/
def decimalChars (n : Nat) : List Char := (digits 10 n).map decimalChar

/-- The decimal numeral of `n`. -/
def decimal (n : Nat) : String := String.ofList (decimalChars n)

def digitValue (c : Char) : Nat := c.toNat - 48

/-- The number a run of decimal digits denotes. -/
def decimalValue (cs : List Char) : Nat := value 10 (cs.map digitValue)

/-- Reads a non-empty run of decimal digits whose value is below `bound`. Leading zeros are
taken. -/
def readDigits (bound : Nat) (cs : List Char) : Option Nat :=
  if cs ≠ [] ∧ cs.all Char.isDigit ∧ decimalValue cs < bound then some (decimalValue cs) else none

/-- Reads a decimal numeral that may carry one plus sign. -/
def readUnsigned (bound : Nat) : List Char → Option Nat
  | '+' :: cs => readDigits bound cs
  | cs => readDigits bound cs

def readUInt8 (cs : List Char) : Option UInt8 := (readUnsigned UInt8.size cs).map UInt8.ofNat

def readUInt16 (cs : List Char) : Option UInt16 := (readUnsigned UInt16.size cs).map UInt16.ofNat

def readUInt32 (cs : List Char) : Option UInt32 := (readUnsigned UInt32.size cs).map UInt32.ofNat

/-! ## Hexadecimal text -/

/-- The character of a hexadecimal digit, in lower case. -/
def hexChar (d : Nat) : Char := if d < 10 then decimalChar d else Char.ofNat (87 + d)

/-- The character of a hexadecimal digit, in upper case. -/
def hexCharUpper (d : Nat) : Char := if d < 10 then decimalChar d else Char.ofNat (55 + d)

/-- The value of a hexadecimal digit character of either case. -/
def hexValue? (c : Char) : Option Nat :=
  if c.isDigit then some (c.toNat - 48)
  else if 'a' ≤ c ∧ c ≤ 'f' then some (c.toNat - 87)
  else if 'A' ≤ c ∧ c ≤ 'F' then some (c.toNat - 55)
  else none

/-- The hexadecimal numeral of `n` in lower case, without leading zeros. -/
def hexChars (n : Nat) : List Char := (digits 16 n).map hexChar

/-- The two upper case hexadecimal digits of a byte. -/
def byteChars (b : UInt8) : List Char :=
  [hexCharUpper (b.toNat / 16), hexCharUpper (b.toNat % 16)]

end OfferAnswer.Numeral
