import SelectorLang.Number.Shortest
/-!
Numbers of the selector language.

A number is a whole number that fits 64 bits, with or without a sign, or else a double. Whole
numbers stay exact; what they cannot hold is a double, and what a double cannot hold is no number.
-/

set_option autoImplicit false

namespace SelectorLang

inductive Number where
  | whole (value : Int) (fits : -0x8000_0000_0000_0000 ≤ value ∧ value < 0x1_0000_0000_0000_0000)
  | double (value : Double)
deriving DecidableEq, Repr

namespace Number

def ofInt? (value : Int) : Option Number :=
  if h : -0x8000_0000_0000_0000 ≤ value ∧ value < 0x1_0000_0000_0000_0000 then
    some (.whole value h)
  else none

def ofNat? (value : Nat) : Option Number := ofInt? value

def toWord? : Number → Option UInt64
  | .whole value _ => if 0 ≤ value then some (UInt64.ofNat value.toNat) else none
  | .double _ => none

theorem fits_of_signed {value : Int}
    (signed : -0x8000_0000_0000_0000 ≤ value ∧ value < 0x8000_0000_0000_0000) :
    -0x8000_0000_0000_0000 ≤ value ∧ value < 0x1_0000_0000_0000_0000 := by
  omega

theorem natAbs_lt_of_fits {value : Int}
    (fits : -0x8000_0000_0000_0000 ≤ value ∧ value < 0x1_0000_0000_0000_0000) :
    value.natAbs < 0x1_0000_0000_0000_0000 := by
  omega

def toDouble : Number → Double
  | .whole value fits => Double.ofInt value (natAbs_lt_of_fits fits)
  | .double value => value

def text : Number → List Char
  | .whole (.ofNat n) _ => Nat.toDigits 10 n
  | .whole (.negSucc n) _ => '-' :: Nat.toDigits 10 (n + 1)
  | .double value => value.text

structure Numeral where
  negative : Bool
  wholeDigits : List Char
  /-- The digits after the point; a numeral without a point has `none`. -/
  fractionDigits : Option (List Char)
  /-- The exponent's sign and digits. -/
  exponent : Option (Bool × List Char)
deriving Repr

/-- The exponent of a numeral; without one it is zero. -/
def Numeral.shift (numeral : Numeral) : Int :=
  match numeral.exponent with
  | none => 0
  | some (negative, digits) =>
    let size : Int := Nat.ofDigitChars 10 digits 0
    if negative then -size else size

def Numeral.toDouble? (numeral : Numeral) : Option Double :=
  let fraction := numeral.fractionDigits.getD []
  let digits := Nat.ofDigitChars 10 (numeral.wholeDigits ++ fraction) 0
  Double.ofDecimal? numeral.negative digits (numeral.shift - fraction.length)

/-- The integer of a numeral without point and exponent. -/
def Numeral.toInt? (numeral : Numeral) : Option Int :=
  match numeral.fractionDigits, numeral.exponent with
  | none, none =>
    let size : Int := Nat.ofDigitChars 10 numeral.wholeDigits 0
    some (if numeral.negative then -size else size)
  | _, _ => none

end Number

end SelectorLang
