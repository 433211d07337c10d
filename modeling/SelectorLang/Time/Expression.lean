import SelectorLang.Error
import SelectorLang.Text.Blank
import SelectorLang.Text.Fold
import SelectorLang.Text.Word
import SelectorLang.Time.Timestamp
/-!
Time expressions such as `yesterday`, `2 weeks ago`, `in 3 days`, `now-7d` and `next month`.

An expression is read without regard to letter case and to the length of its blanks. It names an
instant relative to another one, or it is a timestamp. Months count 30 days and years 365. The
length of a step is counted in words of 64 bits with a sign, and its milliseconds have to fit one as
well.
-/

set_option autoImplicit false

namespace SelectorLang.TimeExpression

open Reader

/-- The units of time: how each may be written, and its seconds. -/
def units : List (List String × Nat) :=
  [(["s", "sec", "secs", "second", "seconds"], 1),
   (["m", "min", "mins", "minute", "minutes"], 60),
   (["h", "hr", "hrs", "hour", "hours"], 3600),
   (["d", "day", "days"], 86400),
   (["w", "wk", "wks", "week", "weeks"], 604800),
   (["mo", "mon", "month", "months"], 2592000),
   (["y", "yr", "yrs", "year", "years"], 31536000)]

def unitSeconds? (name : String) : Option Nat :=
  (units.find? (fun entry => entry.1.contains name)).map Prod.snd

def word? (value : Int) : Option Int :=
  if -0x8000_0000_0000_0000 ≤ value ∧ value < 0x8000_0000_0000_0000 then some value else none

/-- The number of an amount. An article stands for one, and only ASCII digits make a number. -/
def number? (amount : List Char) : Option Int :=
  if amount = ['a'] ∨ amount = ['a', 'n'] then some 1
  else if amount.all Char.isDigit then word? (Nat.ofDigitChars 10 amount 0)
  else none

/-- The seconds of the longest time: its milliseconds fit 64 bits with a sign. -/
def longest : Nat := 9223372036854775

structure Step where
  back : Bool
  amount : List Char
  unit : List Char
deriving DecidableEq, Repr

def Step.length? (step : Step) : Option Int := do
  let number ← number? step.amount
  let seconds ← unitSeconds? (String.ofList step.unit)
  let length ← word? (number * seconds)
  if length.natAbs ≤ longest then pure length else none

def Step.from? (step : Step) (now : Instant) : Option Instant :=
  step.length?.bind (fun length => now.shift? (if step.back then -length else length))

def isLetter (c : Char) : Bool := 'a' ≤ c && c ≤ 'z'

def spaces : Reader Unit := do
  let _ ← run (· == ' ')
  pure ()

def spaces1 : Reader Unit := do
  let _ ← run1 (· == ' ')
  pure ()

/-- Reads a number or an article. -/
def amount : Reader (List Char) :=
  run1 isDecimalDigit <|> (do exactly ['a', 'n']; pure ['a', 'n']) <|>
    (do exactly ['a']; pure ['a'])

/-- Reads `2 days ago`. -/
def ago : Reader Step := do
  let number ← amount
  spaces
  let unit ← run1 isLetter
  spaces1
  exactly ['a', 'g', 'o']
  pure ⟨true, number, unit⟩

/-- Reads `in 2 days`. -/
def ahead : Reader Step := do
  exactly ['i', 'n']
  spaces1
  let number ← amount
  spaces
  let unit ← run1 isLetter
  pure ⟨false, number, unit⟩

/-- Reads the `now` that may stand in front of a sign. -/
def leadingNow : Reader Unit := (do exactly ['n', 'o', 'w']; spaces) <|> pure ()

/-- Reads `now+2d` and `-2d`. -/
def signed : Reader Step := do
  leadingNow
  let sign ← satisfy (fun c => c == '+' || c == '-')
  spaces
  let number ← run1 isDecimalDigit
  spaces
  let unit ← run1 isLetter
  pure ⟨sign == '-', number, unit⟩

/-- Reads `next week` and `last week`. -/
def neighbour : Reader Step := do
  let back ← (do exactly ['n', 'e', 'x', 't']; pure false)
    <|> (do exactly ['l', 'a', 's', 't']; pure true)
  spaces1
  let unit ← run1 isLetter
  pure ⟨back, ['1'], unit⟩

/-- The step that a text spells. The forms begin differently, so a text has one at most; and no unit
begins with an `n`, so an article is read to the end. -/
def step? (text : List Char) : Option Step :=
  ago.readAll text <|> ahead.readAll text <|> signed.readAll text <|> neighbour.readAll text

/-- An expression in lower case, with single spaces between its words. -/
def normalized (expression : List Char) : List Char :=
  Text.fold (Text.squeeze expression)

def resolve? (expression : String) (now : Instant) : Option Instant :=
  let text := normalized expression.toList
  if text = ['n', 'o', 'w'] then some now
  else if text = ['t', 'o', 'd', 'a', 'y'] then now.startOfDay? 0
  else if text = ['y', 'e', 's', 't', 'e', 'r', 'd', 'a', 'y'] then now.startOfDay? (-1)
  else if text = ['t', 'o', 'm', 'o', 'r', 'r', 'o', 'w'] then now.startOfDay? 1
  else match step? text with
    | some step => step.from? now
    | none => Instant.ofTimestamp? (Text.trim expression.toList)

/-- The instant that an expression names at `now`. The error holds the expression as it was
given. -/
def resolve (expression : String) (now : Instant) : Except QueryError Instant :=
  match resolve? expression now with
  | some instant => .ok instant
  | none => .error (.invalidTime expression)

end SelectorLang.TimeExpression
