import SelectorLang.Time.Calendar

set_option autoImplicit false

namespace SelectorLang

namespace Date

/-- Where a day stands in its era: in a cycle of four years of one of its centuries. The day at the
end of a cycle is a leap day, but the last cycle of a century has none unless the century is the
last. -/
structure EraDay where
  century : Nat
  cycle : Nat
  year : Nat
  day : Nat
  centuries : century < 4
  cycles : cycle < 25
  years : year < 4
  days : day < 365 ∨ day = 365 ∧ year = 3 ∧ (cycle < 24 ∨ century = 3)

namespace EraDay

def number (place : EraDay) : Nat :=
  36524 * place.century + 1461 * place.cycle + 365 * place.year + place.day

def yearOfEra (place : EraDay) : Nat := 100 * place.century + 4 * place.cycle + place.year

theorem exists_number {day : Nat} (inside : day < 146097) :
    ∃ place : EraDay, place.number = day := by
  obtain ⟨century, left, parts, centuries, room⟩ : ∃ century left, day = 36524 * century + left ∧
      century < 4 ∧ (left < 36524 ∨ left = 36524 ∧ century = 3) := by
    by_cases last : day = 146096
    · exact ⟨3, 36524, by omega⟩
    · exact ⟨day / 36524, day % 36524, by omega⟩
  obtain ⟨year, rest, within, years, days⟩ : ∃ year rest, left % 1461 = 365 * year + rest ∧
      year < 4 ∧ (rest < 365 ∨ rest = 365 ∧ year = 3) := by
    by_cases leap : left % 1461 = 1460
    · exact ⟨3, 365, by omega⟩
    · exact ⟨left % 1461 / 365, left % 1461 % 365, by omega⟩
  refine ⟨⟨century, left / 1461, year, rest, centuries, by omega, years, by omega⟩, ?_⟩
  simp only [number]
  omega

theorem daysBefore_eq (place : EraDay) :
    365 * place.yearOfEra + place.yearOfEra / 4 - place.yearOfEra / 100 =
      36524 * place.century + 1461 * place.cycle + 365 * place.year := by
  obtain ⟨century, cycle, year, day, centuries, cycles, years, _⟩ := place
  unfold yearOfEra
  simp only
  omega

/-- The year is found by taking out one day for each cycle and putting in one for each century. -/
theorem yearOfEra_eq (place : EraDay) :
    (place.number - place.number / 1460 + place.number / 36524 - place.number / 146096) / 365 =
      place.yearOfEra := by
  obtain ⟨century, cycle, year, day, centuries, cycles, years, days⟩ := place
  unfold number yearOfEra
  simp only
  generalize total : 36524 * century + 1461 * cycle + 365 * year + day = n
  by_cases last : n = 146096
  · omega
  · have whole : n / 36524 = century := by omega
    have first : n / 146096 = 0 := by omega
    have cut : n / 1460 = 25 * century + cycle ∨
        n / 1460 = 25 * century + cycle + 1 ∧ 1364 ≤ 365 * year + day := by omega
    have left : n - n / 1460 + century - 0 =
        365 * (100 * century + 4 * cycle + year) + (day - (n / 1460 - (25 * century + cycle))) := by
      omega
    rw [whole, first, left]
    omega

end EraDay

theorem ofDays_number (era : Int) (place : EraDay) :
    ofDays (era * 146097 + place.number - 719468) =
      let march := (5 * place.day + 2) / 153
      let year := era * 400 + place.yearOfEra
      if march < 10 then ⟨year, march + 3, place.day - (153 * march + 2) / 5 + 1⟩
      else ⟨year + 1, march - 9, place.day - (153 * march + 2) / 5 + 1⟩ := by
  have inside : place.number < 146097 := by
    obtain ⟨century, cycle, year, day, centuries, cycles, years, days⟩ := place
    unfold EraDay.number
    simp only
    omega
  have shifted : era * 146097 + place.number - 719468 + 719468 = era * 146097 + place.number := by
    omega
  have quotient : (era * 146097 + place.number) / 146097 = era := by omega
  have remainder : ((era * 146097 + place.number) % 146097).toNat = place.number := by omega
  have day : place.number - (365 * place.yearOfEra + place.yearOfEra / 4 - place.yearOfEra / 100) =
      place.day := by
    rw [place.daysBefore_eq, EraDay.number]
    omega
  have last : (5 * place.day + 2) / 153 ≤ 11 := by
    have days := place.days
    omega
  simp only [ofDays, shifted, quotient, remainder, place.yearOfEra_eq, day]
  by_cases early : (5 * place.day + 2) / 153 < 10
  · have month : ¬((5 * place.day + 2) / 153 + 3 ≤ 2) := by omega
    simp only [early, month, ↓reduceIte]
  · have month : (5 * place.day + 2) / 153 - 9 ≤ 2 := by omega
    simp only [early, month, ↓reduceIte]

theorem exists_ofDays (days : Int) : ∃ (era : Int) (place : EraDay),
    days = era * 146097 + place.number - 719468 := by
  obtain ⟨place, same⟩ := @EraDay.exists_number ((days + 719468) % 146097).toNat (by omega)
  exact ⟨(days + 719468) / 146097, place, by omega⟩

/-- The days of the months before one in a year that begins in March. -/
theorem monthStart_le (day : Nat) : (153 * ((5 * day + 2) / 153) + 2) / 5 ≤ day := by omega

theorem toDays_ofDays (days : Int) : (ofDays days).toDays = days := by
  obtain ⟨era, place, rfl⟩ := exists_ofDays days
  have before := place.daysBefore_eq
  have inside : place.yearOfEra < 400 := by
    have centuries := place.centuries
    have cycles := place.cycles
    have years := place.years
    unfold EraDay.yearOfEra
    omega
  have last : (5 * place.day + 2) / 153 ≤ 11 := by
    have days := place.days
    omega
  have started := monthStart_le place.day
  rw [ofDays_number, EraDay.number]
  generalize place.yearOfEra = year at before inside ⊢
  generalize (5 * place.day + 2) / 153 = march at last started ⊢
  have century : (era * 400 + (year : Int)) / 400 = era := by omega
  have within : (era * 400 + (year : Int)) % 400 = year := by omega
  by_cases early : march < 10
  · have month : ¬(march + 3 ≤ 2) := by omega
    have back : (march + 3 + 9) % 12 = march := by omega
    simp only [early, ↓reduceIte, toDays, month, century, within, back]
    omega
  · have month : march - 9 ≤ 2 := by omega
    have back : (march - 9 + 9) % 12 = march := by omega
    have same : era * 400 + (year : Int) + 1 - 1 = era * 400 + year := by omega
    simp only [early, ↓reduceIte, toDays, month, same, century, within, back]
    omega

/-- A year with a leap day at its end, counted from March, ends in a leap year. -/
theorem EraDay.isLeapYear_of_last (era : Int) (place : EraDay) (last : place.day = 365) :
    isLeapYear (era * 400 + place.yearOfEra + 1) = true := by
  have days := place.days
  have centuries := place.centuries
  have cycles := place.cycles
  unfold isLeapYear EraDay.yearOfEra
  simp only [Bool.and_eq_true, Bool.or_eq_true, beq_iff_eq, bne_iff_ne]
  omega

theorem isValid_ofDays (days : Int) : (ofDays days).isValid = true := by
  obtain ⟨era, place, rfl⟩ := exists_ofDays days
  have days := place.days
  have leap := place.isLeapYear_of_last era
  rw [ofDays_number]
  generalize place.day = day at days leap ⊢
  generalize era * 400 + (place.yearOfEra : Int) = year at leap ⊢
  have last : (5 * day + 2) / 153 ≤ 11 := by omega
  by_cases early : (5 * day + 2) / 153 < 10
  · simp only [early, ↓reduceIte, isValid, monthLength, Bool.and_eq_true, decide_eq_true_eq]
    split
    · omega
    · split <;> omega
  · simp only [early, ↓reduceIte, isValid, monthLength, Bool.and_eq_true, decide_eq_true_eq]
    by_cases full : day = 365
    · rw [leap full, full]
      decide
    · split
      · split <;> omega
      · split <;> omega
end Date

end SelectorLang
