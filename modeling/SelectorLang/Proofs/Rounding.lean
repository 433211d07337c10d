import SelectorLang.Number.Basic

set_option autoImplicit false

namespace SelectorLang

namespace Double

/-- The middle between the largest double, `(2 ^ 53 - 1) * 2 ^ 971`, and `2 ^ 1024`. What lies below
it is rounded to a double; the middle itself goes to the even neighbour, which is none. -/
def overflow : Nat := 0x3f_ffff_ffff_ffff <<< 970

-- Powers of two stay behind shifts, since they are not to be computed.
theorem shiftLeft_pos {value : Nat} (positive : 0 < value) (shift : Nat) : 0 < value <<< shift := by
  rw [Nat.shiftLeft_eq]
  exact Nat.mul_pos positive (Nat.two_pow_pos shift)

theorem shiftLeft_le (value : Nat) {shift more : Nat} (le : shift ≤ more) :
    value <<< shift ≤ value <<< more := by
  rw [Nat.shiftLeft_eq, Nat.shiftLeft_eq]
  exact Nat.mul_le_mul_left value (Nat.pow_le_pow_right Nat.two_pos le)

theorem mul_shiftLeft (factor value shift : Nat) :
    factor * value <<< shift = (factor * value) <<< shift := by
  rw [Nat.shiftLeft_eq, Nat.shiftLeft_eq, Nat.mul_assoc]

theorem shiftLeft_mul (value shift factor : Nat) :
    value <<< shift * factor = (value * factor) <<< shift := by
  rw [Nat.mul_comm, mul_shiftLeft, Nat.mul_comm]

theorem shiftLeft_lt_iff (left right shift : Nat) :
    left <<< shift < right <<< shift ↔ left < right := by
  rw [Nat.shiftLeft_eq, Nat.shiftLeft_eq]
  exact Nat.mul_lt_mul_right (Nat.two_pow_pos shift)

theorem overflow_pos : 0 < overflow := by
  unfold overflow
  exact shiftLeft_pos (by decide) 970

theorem lt_overflow {value : Nat} (small : value < 0x1_0000_0000_0000_0000) : value < overflow := by
  have wide : 0x3f_ffff_ffff_ffff <<< 11 ≤ overflow := by
    unfold overflow
    exact shiftLeft_le 0x3f_ffff_ffff_ffff (by decide)
  exact Nat.lt_of_lt_of_le small (Nat.le_trans (by decide) wide)

/-- A quotient is rounded to an odd number or less just below the middle behind that number. -/
theorem roundQuotient_le_iff {num den bound : Nat} (positive : 0 < den) (odd : bound % 2 = 1) :
    roundQuotient num den ≤ bound ↔ 2 * num < 2 * (den * bound) + den := by
  have parts := Nat.div_add_mod num den
  have left := Nat.mod_lt num positive
  simp only [roundQuotient]
  generalize num / den = floor at parts ⊢
  generalize num % den = rest at parts left ⊢
  rcases Nat.lt_trichotomy floor bound with below | same | above
  · have room : den * (floor + 1) ≤ den * bound := Nat.mul_le_mul_left den below
    rw [Nat.mul_add] at room
    split <;> omega
  · rw [← same] at odd ⊢
    split <;> omega
  · have room : den * (bound + 1) ≤ den * floor := Nat.mul_le_mul_left den above
    rw [Nat.mul_add] at room
    split <;> omega

theorem le_roundQuotient (num den : Nat) : num / den ≤ roundQuotient num den := by
  simp only [roundQuotient]
  split <;> omega

theorem lt_log2_quotient {num den : Nat} (positive : 0 < den) :
    num < den <<< ((num / den).log2 + 1) := by
  have parts := Nat.div_add_mod num den
  have left := Nat.mod_lt num positive
  have next := Nat.mul_le_mul_left den (@Nat.lt_log2_self (num / den))
  rw [Nat.succ_eq_add_one, Nat.mul_add, ← Nat.shiftLeft_eq] at next
  omega

theorem log2_quotient_le {num den : Nat} (nonzero : num / den ≠ 0) :
    den <<< (num / den).log2 ≤ num := by
  rw [Nat.shiftLeft_eq]
  exact Nat.le_trans (Nat.mul_le_mul_left den (Nat.log2_self_le nonzero)) (Nat.mul_div_le num den)

/-- The magnitude is finite below the middle between the largest double and `2 ^ 1024`, in units of
`2 ^ (-1074)`. -/
theorem nearestMagnitude_lt_infinite_iff {num den : Nat} (positive : 0 < den) :
    nearestMagnitude num den < infinite ↔ num < 0x3f_ffff_ffff_ffff * den <<< 2044 := by
  have scaled := shiftLeft_pos positive 2044
  have power : ∀ bits, den <<< (2044 + bits) = (den <<< 2044) <<< bits :=
    fun bits => Nat.shiftLeft_add den 2044 bits
  generalize den <<< 2044 = unit at scaled power ⊢
  generalize place : (num / den).log2 = leading
  unfold infinite
  rcases Nat.lt_trichotomy leading 2097 with low | middle | high
  · -- Below the highest exponent the magnitude is finite.
    have bound := nearestMagnitude_le num den
    have upper := @lt_log2_quotient num den positive
    have exponent : leading + 1 ≤ 2044 + 53 := by omega
    have room := shiftLeft_le den exponent
    rw [power 53] at room
    rw [place] at bound upper
    omega
  · -- With the highest exponent the significand decides.
    have shift : leading + 1 - 53 = 2044 + 1 := by omega
    have finite := @roundQuotient_le_iff num (unit <<< 1) 0x1f_ffff_ffff_ffff
      (by omega) (by decide)
    simp only [nearestMagnitude, place, shift, power 1]
    omega
  · -- Beyond it the magnitude is not finite.
    have nonzero : num / den ≠ 0 := by
      intro zero
      rw [zero, Nat.log2_zero] at place
      omega
    have lower := log2_quotient_le nonzero
    rw [place] at lower
    have exponent : 2044 + 54 ≤ leading := by omega
    have room := shiftLeft_le den exponent
    rw [power 54] at room
    have parts : den <<< leading = (den <<< (leading + 1 - 53)) <<< 52 := by
      rw [← Nat.shiftLeft_add]
      congr 1
      omega
    have shifted := shiftLeft_pos positive (leading + 1 - 53)
    have significand : 0x10_0000_0000_0000 ≤ roundQuotient num (den <<< (leading + 1 - 53)) := by
      refine Nat.le_trans ?_ (le_roundQuotient _ _)
      rw [Nat.le_div_iff_mul_le shifted]
      omega
    simp only [nearestMagnitude, place]
    omega

theorem ofMagnitude?_zero_ne_none (negative : Bool) : ofMagnitude? negative 0 ≠ none := by
  have finite : 0 < infinite := by decide
  rw [ofMagnitude?, dif_pos finite]
  exact Option.some_ne_none _

theorem ofMagnitude?_eq_none_iff (negative : Bool) (magnitude : Nat) :
    ofMagnitude? negative magnitude = none ↔ infinite ≤ magnitude := by
  rw [ofMagnitude?, ← Nat.not_lt]
  by_cases finite : magnitude < infinite
  · rw [dif_pos finite]
    exact ⟨nofun, fun large => absurd finite large⟩
  · rw [dif_neg finite]
    exact ⟨fun _ => finite, fun _ => rfl⟩

/-- A quotient of a whole number has no double from the middle on. -/
theorem ofQuotient?_eq_none_iff (negative : Bool) (digits : Nat) {den : Nat} (positive : 0 < den) :
    ofMagnitude? negative (nearestMagnitude (digits <<< 1074) den) = none ↔
      overflow * den ≤ digits := by
  have parts : 0x3f_ffff_ffff_ffff * den <<< 2044 = (overflow * den) <<< 1074 := by
    unfold overflow
    rewrite [mul_shiftLeft, shiftLeft_mul, ← Nat.shiftLeft_add]
    exact congrArg _ (Eq.refl 2044)
  have finite := @nearestMagnitude_lt_infinite_iff (digits <<< 1074) den positive
  rewrite [parts, shiftLeft_lt_iff] at finite
  rw [ofMagnitude?_eq_none_iff, ← Nat.not_lt, finite, Nat.not_lt]

/-- Where the number of bits tells that a fraction rounds to zero, the fraction is below one. -/
theorem lt_pow_ten_of_log2 {digits e : Nat} (tiny : digits.log2 + 1076 < 3 * e) :
    digits < Nat.pow 10 (e + 1) := by
  calc digits
    _ < 2 ^ (digits.log2 + 1) := Nat.lt_log2_self
    _ ≤ 2 ^ (3 * e) := Nat.pow_le_pow_right Nat.two_pos (by omega)
    _ = 8 ^ e := Nat.pow_mul 2 3 e
    _ ≤ 10 ^ e := Nat.pow_le_pow_left (by decide) e
    _ ≤ 10 ^ (e + 1) := Nat.pow_le_pow_right (by decide) (Nat.le_succ e)

end Double

namespace Number.Numeral

def digits (numeral : Numeral) : Nat :=
  Nat.ofDigitChars 10 (numeral.wholeDigits ++ numeral.fractionDigits.getD []) 0

def places (numeral : Numeral) : Nat := (numeral.fractionDigits.getD []).length

/-- The numeral is too large for a double. -/
def Overflows (numeral : Numeral) : Prop :=
  Double.overflow * Nat.pow 10 numeral.places ≤ numeral.digits

instance (numeral : Numeral) : Decidable numeral.Overflows := inferInstanceAs (Decidable (_ ≤ _))

theorem not_overflows_of_signed {numeral : Numeral} {value : Int}
    (spelled : numeral.toInt? = some value)
    (signed : -0x8000_0000_0000_0000 ≤ value ∧ value < 0x8000_0000_0000_0000) :
    ¬numeral.Overflows := by
  obtain ⟨negative, wholeDigits, fractionDigits, exponent⟩ := numeral
  cases fractionDigits with
  | some fraction => cases spelled
  | none =>
    cases exponent with
    | some exponent => cases spelled
    | none =>
      have size : digits ⟨negative, wholeDigits, none, none⟩ =
          Nat.ofDigitChars 10 wholeDigits 0 := by
        rw [digits, Option.getD_none, List.append_nil]
      have written : (if negative then -(Nat.ofDigitChars 10 wholeDigits 0 : Int)
          else Nat.ofDigitChars 10 wholeDigits 0) = value := Option.some.inj spelled
      have one : Nat.pow 10 0 = 1 := rfl
      rw [Overflows, places, Option.getD_none, List.length_nil, one, Nat.mul_one, size, Nat.not_le]
      apply Double.lt_overflow
      generalize Nat.ofDigitChars 10 wholeDigits 0 = count at written ⊢
      split at written <;> omega

/-- Numerals without an exponent have a double unless they are too large for it. -/
theorem toDouble?_eq_none_iff {numeral : Numeral} (plain : numeral.exponent = none) :
    numeral.toDouble? = none ↔ numeral.Overflows := by
  have shift : numeral.shift = 0 := by
    rw [Numeral.shift, plain]
  have written : numeral.toDouble? =
      Double.ofDecimal? numeral.negative numeral.digits (0 - (numeral.places : Int)) := by
    rw [toDouble?, shift]
    rfl
  rw [written, Overflows]
  generalize numeral.digits = digits
  cases numeral.places with
  | zero =>
    have exponent : (0 : Int) - (0 : Nat) = Int.ofNat 0 := rfl
    have near : ¬1024 < 0 := by decide
    have one : Nat.pow 10 0 = 1 := rfl
    rewrite [exponent, Double.ofDecimal?, if_neg near, one, Nat.mul_one]
    split
    · rename_i zero
      have positive := Double.overflow_pos
      exact ⟨fun absent => absurd absent (Double.ofMagnitude?_zero_ne_none _),
        fun least => by omega⟩
    · rewrite [← Nat.mul_one Double.overflow]
      exact Double.ofQuotient?_eq_none_iff numeral.negative digits Nat.one_pos
  | succ e =>
    have exponent : (0 : Int) - (e + 1 : Nat) = Int.negSucc e := by
      rw [Int.negSucc_eq]
      omega
    rw [exponent, Double.ofDecimal?]
    split
    · rename_i tiny
      have small := Double.lt_pow_ten_of_log2 tiny
      have large : Nat.pow 10 (e + 1) ≤ Double.overflow * Nat.pow 10 (e + 1) :=
        Nat.le_mul_of_pos_left _ Double.overflow_pos
      exact ⟨fun absent => absurd absent (Double.ofMagnitude?_zero_ne_none _),
        fun least => by omega⟩
    · exact Double.ofQuotient?_eq_none_iff numeral.negative digits (Nat.pow_pos (by decide))

end Number.Numeral

end SelectorLang
