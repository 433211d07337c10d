import Mathlib.Order.Bounds.Defs
import SelectorLang.Proofs.Calendar
import SelectorLang.Proofs.TimeOffsets

set_option autoImplicit false

namespace SelectorLang

namespace Instant

/-- Instants are ordered by their seconds, then by the nanoseconds in the second. -/
instance : LE Instant where
  le earlier later := earlier.seconds < later.seconds ∨
    earlier.seconds = later.seconds ∧ earlier.nanos ≤ later.nanos

theorem le_iff {earlier later : Instant} : earlier ≤ later ↔ earlier.seconds < later.seconds ∨
    earlier.seconds = later.seconds ∧ earlier.nanos ≤ later.nanos := Iff.rfl

def IsMidnight (instant : Instant) : Prop :=
  ∃ date : Date, date.isValid = true ∧ instant.seconds = date.toDays * secondsPerDay ∧
    instant.nanos = 0

theorem isMidnight_iff {instant : Instant} :
    instant.IsMidnight ↔ instant.seconds % secondsPerDay = 0 ∧ instant.nanos = 0 := by
  constructor
  · intro ⟨date, _, start, whole⟩
    rw [start]
    exact ⟨Int.mul_emod_left _ _, whole⟩
  · intro ⟨start, whole⟩
    refine ⟨Date.ofDays (instant.seconds / secondsPerDay), Date.isValid_ofDays _, ?_, whole⟩
    rw [Date.toDays_ofDays, Int.ediv_mul_cancel (Int.dvd_of_emod_eq_zero start)]

/-- The second at which the instant's day starts. -/
def dayStart (instant : Instant) : Int := instant.seconds - instant.seconds % secondsPerDay

theorem startOfDay?_eq (instant : Instant) (days : Int) :
    instant.startOfDay? days = ofUnix? (instant.dayStart + days * secondsPerDay) 0 := rfl

theorem dayStart_inRange (instant : Instant) :
    firstSecond ≤ instant.dayStart ∧ instant.dayStart ≤ lastSecond := by
  have range := instant.inRange
  simp only [dayStart, secondsPerDay, firstSecond, lastSecond] at range ⊢
  omega

/-- The start of the instant's day is the last midnight that is not after it. -/
theorem isGreatest_of_dayStart {instant midnight : Instant}
    (started : midnight.seconds = instant.dayStart) (whole : midnight.nanos = 0) :
    IsGreatest {other : Instant | other.IsMidnight ∧ other ≤ instant} midnight := by
  constructor
  · constructor
    · rw [isMidnight_iff, started, dayStart, secondsPerDay]
      omega
    · rw [le_iff, started, whole, dayStart, secondsPerDay]
      omega
  · intro other ⟨isMidnight, before⟩
    rw [isMidnight_iff, secondsPerDay] at isMidnight
    rw [le_iff] at before
    rw [le_iff, started, whole, dayStart, secondsPerDay]
    omega

/-- A day on, the day starts a day later. -/
theorem dayStart_eq_add {instant other : Instant} {days : Int}
    (apart : other.seconds = instant.seconds + days * secondsPerDay) :
    other.dayStart = instant.dayStart + days * secondsPerDay := by
  simp only [dayStart, apart, secondsPerDay]
  omega

/-- The range of instants is made of whole days. -/
theorem inRange_iff_dayStart (instant : Instant) (days : Int) :
    (firstSecond ≤ instant.seconds + days * secondsPerDay ∧
        instant.seconds + days * secondsPerDay ≤ lastSecond) ↔
      (firstSecond ≤ instant.dayStart + days * secondsPerDay ∧
        instant.dayStart + days * secondsPerDay ≤ lastSecond) := by
  simp only [dayStart, secondsPerDay, firstSecond, lastSecond]
  omega

end Instant

namespace TimeExpression

def atSecond (expression : String) (seconds : Int) : Except QueryError Instant :=
  if inRange : Instant.firstSecond ≤ seconds ∧ seconds ≤ Instant.lastSecond then
    .ok ⟨seconds, 0, inRange, Or.inl (by decide)⟩
  else .error (.invalidTime expression)

theorem resolve_of_startOfDay {expression : String} {now : Instant} {days : Int}
    (answered : resolve? expression now = now.startOfDay? days) :
    resolve expression now = atSecond expression (now.dayStart + days * secondsPerDay) := by
  rw [resolve, answered, now.startOfDay?_eq, Instant.ofUnix?_of_steady (by decide), atSecond]
  by_cases inRange : Instant.firstSecond ≤ now.dayStart + days * secondsPerDay ∧
      now.dayStart + days * secondsPerDay ≤ Instant.lastSecond
  · rw [dif_pos inRange, dif_pos inRange]
  · rw [dif_neg inRange, dif_neg inRange]

theorem resolve_today (now : Instant) :
    resolve "today" now = .ok ⟨now.dayStart, 0, now.dayStart_inRange, Or.inl (by decide)⟩ := by
  have answered : resolve? "today" now = now.startOfDay? 0 := rfl
  have same : now.dayStart + 0 * secondsPerDay = now.dayStart := by omega
  rw [resolve_of_startOfDay answered, same, atSecond, dif_pos now.dayStart_inRange]

/-- An offset of whole days, and the start of the day there. -/
theorem today_of_offset {expression offset : String} {now : Instant}
    (steady : now.nanos < nanosPerSecond) {days : Int}
    (answered : resolve? expression now = now.startOfDay? days)
    (stepped : resolve? offset now =
      Instant.ofUnix? (now.seconds + days * secondsPerDay) now.nanos) :
    (resolve expression now).toOption =
      (resolve offset now).toOption.bind (fun there => (resolve "today" there).toOption) := by
  rw [resolve_of_startOfDay answered, resolve, stepped, Instant.ofUnix?_of_steady steady, atSecond]
  by_cases inRange : Instant.firstSecond ≤ now.seconds + days * secondsPerDay ∧
      now.seconds + days * secondsPerDay ≤ Instant.lastSecond
  · have started := (now.inRange_iff_dayStart days).mp inRange
    rw [dif_pos inRange, dif_pos started]
    simp only [Except.toOption, Option.bind_some, resolve_today]
    rw [Option.some.injEq, Instant.mk.injEq]
    exact ⟨(Instant.dayStart_eq_add rfl).symm, rfl⟩
  · have started := mt (now.inRange_iff_dayStart days).mpr inRange
    rw [dif_neg inRange, dif_neg started]
    rfl

theorem stepped_of_read {offset : String} {spelling : Spelling} {days : Int}
    (read : step? (normalized offset.toList) = some (spelling.step "day".toList))
    (length : spelling.offset 86400 = days * secondsPerDay) {now : Instant}
    (steady : now.nanos < nanosPerSecond) :
    resolve? offset now = Instant.ofUnix? (now.seconds + days * secondsPerDay) now.nanos := by
  rw [resolve?_of_step read, from?_step (by rfl) spelling steady, length]

/-- `today` is the last midnight that is not after `now`; `yesterday` and `tomorrow` are exactly a
day before and after it, and are refused exactly where there is no such instant. They are what
`today` is one day ago and in one day, also in what is refused. -/
theorem resolve_days {now : Instant} (steady : now.nanos < nanosPerSecond) :
    (∃ today, resolve "today" now = .ok today ∧
      IsGreatest {midnight : Instant | midnight.IsMidnight ∧ midnight ≤ now} today ∧
      now.seconds < today.seconds + secondsPerDay ∧
      resolve "yesterday" now = atSecond "yesterday" (today.seconds - secondsPerDay) ∧
      resolve "tomorrow" now = atSecond "tomorrow" (today.seconds + secondsPerDay)) ∧
    (resolve "yesterday" now).toOption =
      (resolve "1 day ago" now).toOption.bind (fun there => (resolve "today" there).toOption) ∧
    (resolve "tomorrow" now).toOption =
      (resolve "in 1 day" now).toOption.bind (fun there => (resolve "today" there).toOption) := by
  have before : resolve? "yesterday" now = now.startOfDay? (-1) := rfl
  have behind : resolve? "tomorrow" now = now.startOfDay? 1 := rfl
  have dayAgo : resolve? "1 day ago" now =
      Instant.ofUnix? (now.seconds + -1 * secondsPerDay) now.nanos :=
    @stepped_of_read "1 day ago" (.ago .one ⟨[' '], rfl⟩ ⟨⟨[' '], rfl⟩, List.cons_ne_nil _ _⟩)
      (-1) rfl (by decide) now steady
  have inDay : resolve? "in 1 day" now =
      Instant.ofUnix? (now.seconds + 1 * secondsPerDay) now.nanos :=
    @stepped_of_read "in 1 day" (.ahead ⟨⟨[' '], rfl⟩, List.cons_ne_nil _ _⟩ .one ⟨[' '], rfl⟩)
      1 rfl (by decide) now steady
  refine ⟨⟨_, resolve_today now, Instant.isGreatest_of_dayStart rfl rfl, ?_, ?_, ?_⟩,
    today_of_offset steady before dayAgo, today_of_offset steady behind inDay⟩
  · show now.seconds < now.dayStart + secondsPerDay
    rw [Instant.dayStart, secondsPerDay]
    omega
  · rw [resolve_of_startOfDay before, Int.neg_mul, Int.one_mul, Int.sub_eq_add_neg]
  · rw [resolve_of_startOfDay behind, Int.one_mul]

/-- A second before 1970, and the last instant of all, which has no day behind it. -/
theorem resolve_days_sample :
    resolve "yesterday" ⟨-1, 999999999, by decide, by decide⟩ =
      .ok ⟨-172800, 0, by decide, by decide⟩ ∧
    (resolve "tomorrow" ⟨8210266876799, 0, by decide, by decide⟩).toOption = none := by
  constructor
  · obtain ⟨⟨today, found, _, _, before, _⟩, _⟩ :=
      @resolve_days ⟨-1, 999999999, by decide, by decide⟩ (by decide)
    rw [before, ← Except.ok.inj found]
    rfl
  · obtain ⟨⟨today, found, _, _, _, behind⟩, _⟩ :=
      @resolve_days ⟨8210266876799, 0, by decide, by decide⟩ (by decide)
    rw [behind, ← Except.ok.inj found]
    rfl

end TimeExpression

end SelectorLang
