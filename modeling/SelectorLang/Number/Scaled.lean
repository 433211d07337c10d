import SelectorLang.Number.Basic
/-!
Numerals read in double arithmetic.

The digits of a numeral, as many as fit 64 bits, make a whole number; that is scaled by a power of
ten. The whole number, the power and their product or quotient are each rounded to the nearest
double, so the answer is the double nearest to the numeral where the digits fit 53 bits and the
power is at most 10^22, and may be off in its last bits elsewhere.
-/

set_option autoImplicit false

namespace SelectorLang

namespace Double

def maxTenPower : Nat := 308

def magnitudeOf (value : Nat) : Nat := nearestMagnitude (value <<< 1074) 1

def productMagnitude (left right : Nat) : Nat :=
  nearestMagnitude (units left * units right) (1 <<< 1074)

def quotientMagnitude (left right : Nat) : Nat :=
  nearestMagnitude (units left <<< 1074) (units right)

/-- A magnitude divided by `10 ^ exponent`, by way of the largest power where that is needed. From
less than 2^64 two divisions by the largest power lead to zero. -/
def scaleDown (magnitude exponent : Nat) : Nat :=
  if exponent ≤ maxTenPower then quotientMagnitude magnitude (magnitudeOf (Nat.pow 10 exponent))
  else if exponent ≤ 2 * maxTenPower then
    quotientMagnitude (quotientMagnitude magnitude (magnitudeOf (Nat.pow 10 maxTenPower)))
      (magnitudeOf (Nat.pow 10 (exponent - maxTenPower)))
  else 0

/-- The double `±value * 10 ^ exponent` with each step rounded, if it is finite, for a value of 64
bits. -/
def ofScaled? (negative : Bool) (value : Nat) (exponent : Int) : Option Double :=
  match exponent with
  | .ofNat e =>
    if value = 0 then ofMagnitude? negative 0
    else if maxTenPower < e then none
    else ofMagnitude? negative (productMagnitude (magnitudeOf value) (magnitudeOf (Nat.pow 10 e)))
  | .negSucc e => ofMagnitude? negative (scaleDown (magnitudeOf value) (e + 1))

end Double

namespace Number.Numeral

/-- Puts digits behind a number as long as the result fits 64 bits; answers with the number and how
many digits are left over. -/
def gather (value : Nat) : List Char → Nat × Nat
  | [] => (value, 0)
  | digit :: others =>
    let longer := 10 * value + (digit.toNat - 48)
    if longer < 0x1_0000_0000_0000_0000 then gather longer others else (value, others.length + 1)

theorem gather_lt (value : Nat) (digits : List Char) (small : value < 0x1_0000_0000_0000_0000) :
    (gather value digits).1 < 0x1_0000_0000_0000_0000 := by
  induction digits generalizing value with
  | nil => exact small
  | cons digit others ih =>
    simp only [gather]
    split
    · next longer => exact ih _ longer
    · exact small

/-- The double that a numeral of ASCII digits gives in double arithmetic. -/
def toScaled? (numeral : Numeral) : Option Double :=
  let fraction := numeral.fractionDigits.getD []
  let (wholes, left) := gather 0 numeral.wholeDigits
  let (value, unread) := gather wholes fraction
  Double.ofScaled? numeral.negative value (numeral.shift + left + unread - fraction.length)

end Number.Numeral

end SelectorLang
