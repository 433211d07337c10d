import Mathlib.Data.Rat.Floor
import Mathlib.Tactic.NormNum
import SelectorLang.Proofs.Days
import SelectorLang.Proofs.Rounding
import SelectorLang.Selector.Resolution

set_option autoImplicit false

namespace SelectorLang

namespace Double

def value (number : Double) : ℚ :=
  (if number.negative then -(units number.magnitude : ℚ) else units number.magnitude) /
    (1 <<< 1074 : ℕ)

theorem log2_shiftLeft {whole : Nat} (nonzero : whole ≠ 0) (shift : Nat) :
    (whole <<< shift).log2 = whole.log2 + shift := by
  have moved : whole <<< shift ≠ 0 :=
    Nat.ne_of_gt (shiftLeft_pos (Nat.pos_of_ne_zero nonzero) shift)
  rw [Nat.log2_eq_iff moved, Nat.shiftLeft_eq, Nat.pow_add, Nat.add_right_comm, Nat.pow_add]
  exact ⟨Nat.mul_le_mul_right _ (Nat.log2_self_le nonzero),
    Nat.mul_lt_mul_of_pos_right Nat.lt_log2_self (Nat.two_pow_pos shift)⟩

/-- The leading bit of a significand of 53 bits counts as one more exponent. -/
theorem units_of_significand {bits : Nat} (least : 0x10_0000_0000_0000 ≤ bits)
    (most : bits < 0x20_0000_0000_0000) (exponent : Nat) :
    units (exponent * 0x10_0000_0000_0000 + bits) = bits <<< exponent := by
  have quotient : (exponent * 0x10_0000_0000_0000 + bits) / 0x10_0000_0000_0000 - 1 = exponent := by
    omega
  have rest : (exponent * 0x10_0000_0000_0000 + bits) % 0x10_0000_0000_0000 =
      bits - 0x10_0000_0000_0000 := by
    omega
  rw [units, significand, scale, if_neg (by omega), quotient, rest, Nat.add_sub_cancel' least]

theorem roundQuotient_mul (quotient : Nat) {den : Nat} (positive : 0 < den) :
    roundQuotient (quotient * den) den = quotient := by
  simp only [roundQuotient, Nat.mul_div_cancel _ positive, Nat.mul_mod_left]
  rw [if_neg]
  omega

/-- Whole numbers of 53 bits are rounded to themselves: moved up until the leading bit is the
highest one, they are significands. -/
theorem units_nearestMagnitude {whole : Nat} (small : whole < 0x20_0000_0000_0000) :
    units (nearestMagnitude (whole <<< 1074) 1) = whole <<< 1074 := by
  by_cases zero : whole = 0
  · subst zero
    rfl
  have low := Nat.log2_self_le zero
  have high := @Nat.lt_log2_self whole
  have place : whole.log2 < 53 := (Nat.log2_lt zero).mpr small
  have exponent : (whole <<< 1074 / 1).log2 + 1 - 53 = whole.log2 + 1022 := by
    rw [Nat.div_one, log2_shiftLeft zero]
    omega
  generalize whole.log2 = leading at low high place exponent
  have parts : whole <<< 1074 = whole <<< (52 - leading) * 1 <<< (leading + 1022) := by
    rw [mul_shiftLeft, Nat.mul_one, ← Nat.shiftLeft_add,
      show 52 - leading + (leading + 1022) = 1074 by omega]
  have least : 0x10_0000_0000_0000 ≤ whole <<< (52 - leading) := by
    rw [Nat.shiftLeft_eq]
    calc 2 ^ 52
      _ = 2 ^ (leading + (52 - leading)) := by rw [Nat.add_sub_cancel' (Nat.le_of_lt_succ place)]
      _ = 2 ^ leading * 2 ^ (52 - leading) := Nat.pow_add 2 leading _
      _ ≤ whole * 2 ^ (52 - leading) := Nat.mul_le_mul_right _ low
  have most : whole <<< (52 - leading) < 0x20_0000_0000_0000 := by
    rw [Nat.shiftLeft_eq]
    calc whole * 2 ^ (52 - leading)
      _ < 2 ^ (leading + 1) * 2 ^ (52 - leading) :=
        Nat.mul_lt_mul_of_pos_right high (Nat.two_pow_pos _)
      _ = 2 ^ (leading + 1 + (52 - leading)) := (Nat.pow_add 2 _ _).symm
      _ = 2 ^ 53 := by rw [show leading + 1 + (52 - leading) = 53 by omega]
  have rounded := roundQuotient_mul (whole <<< (52 - leading))
    (shiftLeft_pos Nat.one_pos (leading + 1022))
  rw [← parts] at rounded
  rw [nearestMagnitude, exponent, rounded, units_of_significand least most, ← Nat.shiftLeft_add,
    show 52 - leading + (leading + 1022) = 1074 by omega]

/-- Whole numbers of 53 bits are doubles. -/
theorem value_ofInt {whole : Int} (small : whole.natAbs < 0x20_0000_0000_0000)
    (fits : whole.natAbs < 0x1_0000_0000_0000_0000) : (ofInt whole fits).value = whole := by
  have unit : ((1 <<< 1074 : ℕ) : ℚ) ≠ 0 :=
    Nat.cast_ne_zero.mpr (Nat.ne_of_gt (shiftLeft_pos Nat.one_pos 1074))
  have scaled : (units (ofInt whole fits).magnitude : ℚ) / (1 <<< 1074 : ℕ) = |(whole : ℚ)| := by
    have parts := mul_shiftLeft whole.natAbs 1 1074
    rw [Nat.mul_one] at parts
    rw [ofInt, units_nearestMagnitude small, ← parts, Nat.cast_mul, mul_div_cancel_right₀ _ unit,
      Nat.cast_natAbs, Int.cast_abs]
  have sign : (ofInt whole fits).negative = decide (whole < 0) := rfl
  rw [value, sign]
  by_cases below : whole < 0
  · rw [decide_eq_true below, if_pos rfl, neg_div, scaled, abs_of_neg (Int.cast_lt_zero.mpr below),
      neg_neg]
  · rw [decide_eq_false below, if_neg Bool.false_ne_true, scaled,
      abs_of_nonneg (Int.cast_nonneg (Int.not_lt.mp below))]

end Double

namespace Instant

def nanoseconds (instant : Instant) : Int := instant.seconds * nanosPerSecond + instant.nanos

def exactMilliseconds (instant : Instant) : ℚ := instant.nanoseconds / (1000000 : ℕ)

theorem milliseconds_fits (instant : Instant) :
    instant.milliseconds.natAbs < 0x1_0000_0000_0000_0000 :=
  Nat.lt_of_lt_of_le instant.milliseconds_natAbs_lt (by decide)

/-- The whole milliseconds are rounded down, also before 1970. -/
theorem milliseconds_eq_floor (instant : Instant) :
    instant.milliseconds = ⌊instant.exactMilliseconds⌋ := by
  rw [exactMilliseconds, Rat.floor_intCast_div_natCast, milliseconds, nanoseconds, nanosPerSecond]
  omega

/-- Outside leap seconds later instants have more nanoseconds. -/
theorem nanoseconds_le {earlier later : Instant} (steady : earlier.nanos < nanosPerSecond)
    (before : earlier ≤ later) : earlier.nanoseconds ≤ later.nanoseconds := by
  rw [le_iff] at before
  simp only [nanoseconds, nanosPerSecond] at steady ⊢
  omega

theorem milliseconds_le {earlier later : Instant} (steady : earlier.nanos < nanosPerSecond)
    (before : earlier ≤ later) : earlier.milliseconds ≤ later.milliseconds := by
  rw [milliseconds_eq_floor, milliseconds_eq_floor]
  apply Int.floor_le_floor
  rw [exactMilliseconds, exactMilliseconds]
  exact div_le_div_of_nonneg_right (Int.cast_le.mpr (nanoseconds_le steady before))
    (Nat.cast_nonneg _)

/-- Instants a millisecond apart are not in the same millisecond. -/
theorem milliseconds_ne {first second : Instant}
    (apart : 1 ≤ |second.exactMilliseconds - first.exactMilliseconds|) :
    first.milliseconds ≠ second.milliseconds := by
  rw [milliseconds_eq_floor, milliseconds_eq_floor]
  intro same
  have near := Int.abs_sub_lt_one_of_floor_eq_floor same.symm
  exact absurd apart (not_le.mpr near)

end Instant

namespace Comparison

def ofInstant (instant : Instant) : Double :=
  Double.ofInt instant.milliseconds instant.milliseconds_fits

theorem value_ofInstant (instant : Instant) : (ofInstant instant).value = instant.milliseconds :=
  Double.value_ofInt instant.milliseconds_natAbs_lt _

theorem resolve_relative (field expression : String) (now : Instant) :
    (relative field expression).resolve now =
      (TimeExpression.resolve expression now).map ofInstant := rfl

/-- Resolving a comparison fails just where its time expression names no instant, with the error of
the expression, and never where it compares with a number. The double for an instant is the number
of its milliseconds, rounded down, and has that value exactly. Doubles are ordered as the instants
are, and differ where the instants are a millisecond or more apart. -/
theorem resolve_exact (field expression : String) (now : Instant) :
    (∀ number : Number, (absolute field number).resolve now = .ok number.toDouble) ∧
    (∀ error, (relative field expression).resolve now = .error error ↔
      TimeExpression.resolve expression now = .error error) ∧
    ∀ instant, TimeExpression.resolve expression now = .ok instant →
      instant.nanos < nanosPerSecond →
      ∃ number, (relative field expression).resolve now = .ok number ∧
        number.value = ⌊instant.exactMilliseconds⌋ ∧ |⌊instant.exactMilliseconds⌋| < 2 ^ 53 ∧
        ∀ (otherField otherExpression : String) (otherNow other : Instant),
          TimeExpression.resolve otherExpression otherNow = .ok other →
          ∃ otherNumber, (relative otherField otherExpression).resolve otherNow = .ok otherNumber ∧
            (instant ≤ other → number.value ≤ otherNumber.value) ∧
            (1 ≤ |other.exactMilliseconds - instant.exactMilliseconds| →
              number.value ≠ otherNumber.value) := by
  refine ⟨fun number => rfl, fun error => ?_, fun instant named steady => ?_⟩
  · rw [resolve_relative]
    cases TimeExpression.resolve expression now with
    | error reason => rw [Except.map, Except.error.injEq, Except.error.injEq]
    | ok instant => rw [Except.map]; exact ⟨nofun, nofun⟩
  · have bound : |instant.milliseconds| < 2 ^ 53 := by
      have small := instant.milliseconds_natAbs_lt
      rw [abs_lt]
      omega
    refine ⟨ofInstant instant, by rw [resolve_relative, named]; rfl, ?_, ?_, ?_⟩
    · rw [value_ofInstant, instant.milliseconds_eq_floor]
    · rwa [← instant.milliseconds_eq_floor]
    · intro otherField otherExpression otherNow other otherNamed
      refine ⟨ofInstant other, by rw [resolve_relative, otherNamed]; rfl, ?_, ?_⟩
      · intro before
        rw [value_ofInstant, value_ofInstant, Int.cast_le]
        exact Instant.milliseconds_le steady before
      · intro apart
        rw [value_ofInstant, value_ofInstant, ne_eq, Int.cast_inj]
        exact Instant.milliseconds_ne apart

/-- The last nanosecond before 1970 belongs to the millisecond before it. -/
theorem resolve_exact_sample :
    ∃ before behind, (relative "mdate" "now").resolve ⟨-1, 999999999, by decide, by decide⟩ =
        .ok before ∧
      (relative "cdate" "now").resolve ⟨0, 999999, by decide, by decide⟩ = .ok behind ∧
      before.value = -1 ∧ before.value ≤ behind.value ∧ before.value ≠ behind.value := by
  have now : ∀ instant, TimeExpression.resolve "now" instant = .ok instant := fun _ => rfl
  obtain ⟨_, _, exact⟩ := resolve_exact "mdate" "now" ⟨-1, 999999999, by decide, by decide⟩
  obtain ⟨before, found, value, _, others⟩ := exact _ (now _) (by decide)
  obtain ⟨behind, later, ordered, apart⟩ :=
    others "cdate" "now" ⟨0, 999999, by decide, by decide⟩ _ (now _)
  refine ⟨before, behind, found, later, ?_, ordered (Or.inl (by decide)), apart ?_⟩
  · rw [value, ← Instant.milliseconds_eq_floor]
    rfl
  · norm_num [Instant.exactMilliseconds, Instant.nanoseconds, nanosPerSecond]

end Comparison

end SelectorLang
