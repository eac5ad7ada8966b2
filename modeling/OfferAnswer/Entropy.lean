/-!
# Entropy

Everything random that a session writes — its id, its canonical name, ICE credentials, SSRCs —
is drawn from an `Entropy`: an unlimited sequence of numbers and the position reached in it. A
draw is a pure step, so a run of a session is a function of its entropy, and a statement over all
entropies is a statement over all random values.

The forms are fixed here. Random text uses 60 letters and digits that need no quoting anywhere.
A session id fits a signed 64-bit number with room to count upwards, a random SSRC is never 0
(the media SSRC 0 stands for "unspecified" in RTCP feedback), and a random payload type lies in
the dynamic range.
-/

namespace OfferAnswer

/-- A sequence of numbers and how many of them have been used. -/
structure Entropy where
  /-- The numbers, by position. -/
  values : Nat → Nat
  /-- The position of the next draw. -/
  used : Nat

namespace Entropy

/-- The characters of random text. -/
def alphabet : List Char :=
  "abcdefghijklmnopqrstuvxyzABCDEFGHIJKLMNOPQRSTUVXYZ0123456789".toList

def next (e : Entropy) : Nat × Entropy := (e.values e.used, { e with used := e.used + 1 })

/-- Draws `n` characters of the alphabet. -/
def chars : Nat → Entropy → List Char × Entropy
  | 0, e => ([], e)
  | n + 1, e =>
    let (v, e) := e.next
    let (cs, e) := chars n e
    (alphabet.getD (v % alphabet.length) 'a' :: cs, e)

/-- Draws a text of `n` characters. -/
def text (n : Nat) (e : Entropy) : String × Entropy :=
  let (cs, e) := chars n e
  (String.ofList cs, e)

/-- Draws a session id in `1 .. 2 ^ 62 - 2`. -/
def sessionId (e : Entropy) : UInt64 × Entropy :=
  let (v, e) := e.next
  (UInt64.ofNat (v % (Nat.pow 2 62 - 2) + 1), e)

/-- Draws an SSRC other than 0. -/
def ssrc (e : Entropy) : UInt32 × Entropy :=
  let (v, e) := e.next
  (UInt32.ofNat (v % (UInt32.size - 1) + 1), e)

/-- Draws a payload type of the dynamic range `96 .. 127`. -/
def payloadType (e : Entropy) : UInt8 × Entropy :=
  let (v, e) := e.next
  (UInt8.ofNat (v % 32 + 96), e)

end Entropy

end OfferAnswer
