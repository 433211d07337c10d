import SelectorLang.Text.Reader
import SelectorLang.Time.Instant
/-!
Timestamps in the form of RFC 3339.

Written timestamps are in UTC with the offset `+00:00` and as many groups of three fraction digits
as the instant needs. Read ones may be at any offset below a day.
-/

set_option autoImplicit false

namespace SelectorLang.Instant

def padded (width : Nat) (value : Nat) : List Char :=
  let digits := Nat.toDigits 10 value
  List.replicate (width - digits.length) '0' ++ digits

/-- A year outside the four-digit ones carries its sign. -/
def yearText (year : Int) : List Char :=
  if 0 ≤ year ∧ year ≤ 9999 then padded 4 year.toNat
  else (if year < 0 then '-' else '+') :: padded 4 year.natAbs

def fractionText (nanos : Nat) : List Char :=
  if nanos = 0 then []
  else if nanos % 1000000 = 0 then '.' :: padded 3 (nanos / 1000000)
  else if nanos % 1000 = 0 then '.' :: padded 6 (nanos / 1000)
  else '.' :: padded 9 nanos

def timestamp (instant : Instant) : String :=
  let date := Date.ofDays (instant.seconds / secondsPerDay)
  let second := (instant.seconds % secondsPerDay).toNat
  let added := if instant.isLeap then 1 else 0
  String.ofList <|
    yearText date.year ++ '-' :: (padded 2 date.month ++ '-' :: (padded 2 date.day ++
      'T' :: (padded 2 (second / 3600) ++ ':' :: (padded 2 (second / 60 % 60) ++
        ':' :: (padded 2 (second % 60 + added) ++
          fractionText (instant.nanos - added * nanosPerSecond) ++
            ['+', '0', '0', ':', '0', '0'])))))

open Reader

/-- Reads the digits after a point as nanoseconds; those after the ninth do not count. -/
def fraction : Reader Nat := do
  let pointed ← flag '.'
  if pointed then
    let digits ← run1 Char.isDigit
    let counted := digits.take 9
    pure (Nat.ofDigitChars 10 counted 0 * Nat.pow 10 (9 - counted.length))
  else pure 0

def utcOffset : Reader Int :=
  (do
    let _ ← satisfy (fun c => c == 'Z' || c == 'z')
    pure 0)
  <|> (do
    let sign ← satisfy (fun c => c == '+' || c == '-' || c == '\u2212')
    let hours ← fixedNumber 2
    exactly [':']
    let minutes ← fixedNumber 2
    if 23 < hours ∨ 59 < minutes then failure
    let size : Int := hours * 3600 + minutes * 60
    pure (if sign == '+' then size else -size))

def timestampReader : Reader (Option Instant) := do
  let year ← fixedNumber 4
  exactly ['-']
  let month ← fixedNumber 2
  exactly ['-']
  let day ← fixedNumber 2
  let _ ← satisfy (fun c => c == 'T' || c == 't' || c == ' ')
  let hour ← fixedNumber 2
  exactly [':']
  let minute ← fixedNumber 2
  exactly [':']
  let second ← fixedNumber 2
  let nanos ← fraction
  let offset ← utcOffset
  let date : Date := ⟨year, month, day⟩
  if !date.isValid || 23 < hour || 59 < minute || 60 < second then failure
  let (second, added) := if second = 60 then (59, nanosPerSecond) else (second, 0)
  let civil : Int := date.toDays * secondsPerDay + (hour * 3600 + minute * 60 + second : Nat)
  pure (ofUnix? (civil - offset) (nanos + added))

/-- Reads a timestamp. A second numbered 60 is a leap second. -/
def ofTimestamp? (text : List Char) : Option Instant :=
  (timestampReader.readAll text).join

end SelectorLang.Instant
