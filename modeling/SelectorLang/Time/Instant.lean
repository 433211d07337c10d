import SelectorLang.Time.Calendar
/-!
Instants in UTC.

An instant is a second, counted from 1970-01-01T00:00:00Z, and the nanoseconds passed in it. The
last second of a minute may be a leap second: it goes on past the thousand million nanoseconds of
the others. Instants lie in the years from -262143 to 262142.
-/

set_option autoImplicit false

namespace SelectorLang

/-- -262143-01-01T00:00:00Z. -/
def Instant.firstSecond : Int := -8334601228800

/-- +262142-12-31T23:59:59Z. -/
def Instant.lastSecond : Int := 8210266876799

def nanosPerSecond : Nat := 1000000000

def secondsPerDay : Int := 86400

structure Instant where
  seconds : Int
  nanos : Nat
  inRange : Instant.firstSecond ≤ seconds ∧ seconds ≤ Instant.lastSecond
  wellTimed : nanos < nanosPerSecond ∨ (nanos < 2 * nanosPerSecond ∧ seconds % 60 = 59)
deriving DecidableEq, Repr

namespace Instant

def ofUnix? (seconds : Int) (nanos : Nat) : Option Instant :=
  if inRange : firstSecond ≤ seconds ∧ seconds ≤ lastSecond then
    if wellTimed : nanos < nanosPerSecond ∨ (nanos < 2 * nanosPerSecond ∧ seconds % 60 = 59) then
      some ⟨seconds, nanos, inRange, wellTimed⟩
    else none
  else none

/-- Whether the instant lies in the added part of a leap second. -/
def isLeap (instant : Instant) : Bool := nanosPerSecond ≤ instant.nanos

/-- The instant so many seconds later, or earlier. A step out of a leap second goes on from the
second before it when it leads forward, and from the second after it when it leads back. -/
def shift? (instant : Instant) (seconds : Int) : Option Instant :=
  if seconds = 0 then some instant
  else if instant.isLeap then
    let start := if seconds < 0 then instant.seconds + 1 else instant.seconds
    ofUnix? (start + seconds) (instant.nanos - nanosPerSecond)
  else ofUnix? (instant.seconds + seconds) instant.nanos

def startOfDay? (instant : Instant) (days : Int) : Option Instant :=
  ofUnix? (instant.seconds - instant.seconds % secondsPerDay + days * secondsPerDay) 0

/-- The whole milliseconds since 1970-01-01T00:00:00Z. -/
def milliseconds (instant : Instant) : Int :=
  instant.seconds * 1000 + (instant.nanos / 1000000 : Nat)

theorem milliseconds_natAbs_lt (instant : Instant) :
    instant.milliseconds.natAbs < 0x20_0000_0000_0000 := by
  obtain ⟨seconds, nanos, inRange, wellTimed⟩ := instant
  simp only [firstSecond, lastSecond, nanosPerSecond] at inRange wellTimed
  simp only [milliseconds]
  omega

end Instant

end SelectorLang
