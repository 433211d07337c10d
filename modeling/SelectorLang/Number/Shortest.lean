import SelectorLang.Number.Double
/-!
Shortest decimal digits of a double.

The reals that round to a double form an interval around it, its ends included when the significand
is even. Of the decimal numbers in that interval those with the fewest significant digits are
looked at, and of these the nearest to the double is chosen; a tie goes to the even last digit.
-/

set_option autoImplicit false

namespace SelectorLang.Double

/-- The interval of reals that round to a magnitude, in quarters of a unit. -/
structure Interval where
  lower : Nat
  value : Nat
  upper : Nat
  closed : Bool
deriving Repr

/-- The gap below a power of two is half the gap above it, save at the smallest ones. -/
def interval (magnitude : Nat) : Interval :=
  let step := 1 <<< scale magnitude
  let value := 4 * units magnitude
  let below :=
    if magnitude % 0x10_0000_0000_0000 = 0 ∧ 0x20_0000_0000_0000 ≤ magnitude then step
    else 2 * step
  ⟨value - below, value, value + 2 * step, magnitude % 2 = 0⟩

def Interval.holds (range : Interval) (num den : Nat) : Bool :=
  if range.closed then range.lower * den ≤ num && num ≤ range.upper * den
  else range.lower * den < num && num < range.upper * den

def quarters : Nat := 1 <<< 1076

/-- The exponent of the leading decimal digit of a value in quarters, which is not zero. -/
def leadingExponent (value : Nat) : Int :=
  ((Nat.toDigits 10 (value * Nat.pow 10 400 / quarters)).length : Int) - 401

structure Decimal where
  digits : Nat
  exponent : Int
deriving DecidableEq, Repr

def Decimal.quotient (decimal : Decimal) : Nat × Nat :=
  match decimal.exponent with
  | .ofNat e => (decimal.digits * Nat.pow 10 e * quarters, 1)
  | .negSucc e => (decimal.digits * quarters, Nat.pow 10 (e + 1))

/-- The nearest neighbour of the value with a decimal exponent, among those in the interval. -/
def neighbour? (range : Interval) (exponent : Int) : Option Decimal :=
  let (num, den) := (Decimal.mk 1 exponent).quotient
  let floor := range.value * den / num
  let below : Decimal := ⟨floor, exponent⟩
  let above : Decimal := ⟨floor + 1, exponent⟩
  let inside (d : Decimal) : Bool := range.holds d.quotient.1 d.quotient.2
  let twice := 2 * (range.value * den % num)
  match inside below, inside above with
  | true, true =>
    if twice < num ∨ (twice = num ∧ floor % 2 = 0) then some below else some above
  | true, false => some below
  | false, true => some above
  | false, false => none

/-- The shortest decimal for a magnitude that is not zero. Seventeen digits always suffice. -/
def shortest (magnitude : Nat) : Decimal :=
  let range := interval magnitude
  let leading := leadingExponent range.value
  ((List.range 17).findSome? (fun (n : Nat) => neighbour? range (leading - n))).getD ⟨0, 0⟩

/-- A decimal without zeros at the end of its digits. -/
def Decimal.digitText (decimal : Decimal) : List Char :=
  ((Nat.toDigits 10 decimal.digits).reverse.dropWhile (· == '0')).reverse

/-- The text of a double: positional with at least one decimal from 10^(-5) up to 10^16, else with
one digit before the point and a signed exponent. -/
def text (d : Double) : List Char :=
  let sign := if d.negative then ['-'] else []
  if d.magnitude = 0 then sign ++ ['0', '.', '0']
  else
    let decimal := shortest d.magnitude
    let all := Nat.toDigits 10 decimal.digits
    let digits := decimal.digitText
    let leading := decimal.exponent + all.length - 1
    sign ++
      if 16 ≤ leading ∨ leading < -5 then
        let fraction := digits.drop 1
        let mark := if leading < 0 then '-' else '+'
        digits.take 1 ++ (if fraction.isEmpty then [] else '.' :: fraction) ++
          'e' :: mark :: Nat.toDigits 10 leading.natAbs
      else if leading < 0 then
        '0' :: '.' :: (List.replicate (leading.natAbs - 1) '0' ++ digits)
      else
        let wholes := leading.toNat + 1
        let fraction := digits.drop wholes
        digits.take wholes ++ List.replicate (wholes - digits.length) '0' ++
          '.' :: (if fraction.isEmpty then ['0'] else fraction)

end SelectorLang.Double
