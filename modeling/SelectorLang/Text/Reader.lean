/-!
Readers: functions that take something from the front of a text.

A reader either fails or answers with what it read and the text after it. Each reader below looks at
one character at a time and never takes back a decision, so a text has at most one reading.
-/

set_option autoImplicit false

namespace SelectorLang

abbrev Reader (α : Type) := StateT (List Char) Option α

namespace Reader

def satisfy (accepts : Char → Bool) : Reader Char := fun text =>
  match text with
  | [] => none
  | c :: rest => if accepts c then some (c, rest) else none

def exactly (expected : List Char) : Reader Unit := fun text =>
  if expected.isPrefixOf text then some ((), text.drop expected.length) else none

/-- Reads the longest run of characters of a class, possibly none. -/
def run (accepts : Char → Bool) : Reader (List Char) := fun text =>
  some (text.takeWhile accepts, text.dropWhile accepts)

/-- Reads the longest run of characters of a class, at least one. -/
def run1 (accepts : Char → Bool) : Reader (List Char) := do
  let first ← satisfy accepts
  let others ← run accepts
  pure (first :: others)

/-- Reads the character if it stands next, and tells whether it did. -/
def flag (mark : Char) : Reader Bool := fun text =>
  match text with
  | c :: rest => if c = mark then some (true, rest) else some (false, c :: rest)
  | [] => some (false, [])

def atEnd : Reader Unit := fun text => if text.isEmpty then some ((), []) else none

/-- Reads exactly so many ASCII digits. -/
def fixedNumber : Nat → Reader Nat
  | 0 => pure 0
  | width + 1 => do
    let high ← fixedNumber width
    let digit ← satisfy Char.isDigit
    pure (10 * high + (digit.toNat - 48))

/-- Reads items as long as there are any, at most `fuel` of them. -/
def manyAtMost {α : Type} (item : Reader α) : Nat → Reader (List α)
  | 0 => pure []
  | fuel + 1 => fun text =>
    match item text with
    | none => some ([], text)
    | some (value, rest) =>
      (manyAtMost item fuel rest).map (fun (values, after) => (value :: values, after))

/-- Reads items as long as there are any. An item takes at least one character. -/
def many {α : Type} (item : Reader α) : Reader (List α) := fun text =>
  manyAtMost item text.length text

def readAll {α : Type} (reader : Reader α) (text : List Char) : Option α :=
  match reader text with
  | some (value, []) => some value
  | _ => none

end Reader

end SelectorLang
