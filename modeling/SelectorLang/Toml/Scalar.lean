import SelectorLang.Json.Reader
import SelectorLang.Time.Timestamp
import SelectorLang.Toml.Basic

set_option autoImplicit false

namespace SelectorLang.Toml

open Reader

def isSpace (c : Char) : Bool := c == ' ' || c == '\t'

/-- Control characters other than the tab appear in no string and no comment. -/
def isPlain (c : Char) : Bool := c == '\t' || (0x20 ≤ c.toNat && c.toNat != 0x7F)

def spaces : Reader Unit := do
  let _ ← run isSpace

def lineBreak : Reader Unit := exactly ['\n'] <|> exactly ['\r', '\n']

def comment : Reader Unit := do
  exactly ['#']
  let _ ← run isPlain

def lineEnd : Reader Unit := do
  spaces
  comment <|> pure ()
  lineBreak <|> atEnd

def codePoint (digits : Nat) : Reader Char := do
  let code ← digitsFrom digits 0
  if code.isValidChar then pure (Char.ofNat code) else failure
where
  digitsFrom : Nat → Nat → Reader Nat
    | 0, value => pure value
    | count + 1, value => do
      let digit ← satisfy isHexDigit
      match Json.hexValue? digit with
      | some low => digitsFrom count (16 * value + low)
      | none => failure

def escape : Reader Char := do
  exactly ['\\']
  let c ← satisfy (fun _ => true)
  if c == 'b' then pure '\x08'
  else if c == 't' then pure '\t'
  else if c == 'n' then pure '\n'
  else if c == 'f' then pure '\x0c'
  else if c == 'r' then pure '\r'
  else if c == '"' || c == '\\' then pure c
  else if c == 'u' then codePoint 4
  else if c == 'U' then codePoint 8
  else failure

def basicString : Reader (List Char) := do
  exactly ['"']
  let text ← many (satisfy (fun c => isPlain c && c != '"' && c != '\\') <|> escape)
  exactly ['"']
  pure text

/-- Reads the character if it is not the mark of an apostrophe-quoted string. -/
def literalChar : Reader Char := satisfy (fun c => isPlain c && c != '\x27')

def literalString : Reader (List Char) := do
  exactly ['\x27']
  let text ← many literalChar
  exactly ['\x27']
  pure text

/-- Reads one or two quotation marks that do not end a string of several lines. -/
def looseMarks (mark : Char) : Reader (List Char) := do
  let marks ← run1 (· == mark)
  if marks.length < 3 then pure marks else failure

/-- Reads the end of a string of several lines: three marks, after up to two that belong to it. -/
def closingMarks (mark : Char) : Reader (List Char) := do
  let marks ← run (· == mark)
  if 3 ≤ marks.length ∧ marks.length ≤ 5 then pure (marks.drop 3) else failure

/-- Reads a line break, which always counts as a line feed. -/
def lineFeed : Reader (List Char) := do
  lineBreak
  pure ['\n']

/-- Reads a backslash at the end of a line with all blanks up to the next visible character. -/
def continuation : Reader (List Char) := do
  exactly ['\\']
  spaces
  lineBreak
  let _ ← many ((do let _ ← satisfy isSpace) <|> lineBreak)
  pure []

def basicLines : Reader (List Char) := do
  exactly ['"', '"', '"']
  lineBreak <|> pure ()
  let parts ← many
    ((do pure [← satisfy (fun c => isPlain c && c != '"' && c != '\\')])
      <|> lineFeed <|> continuation <|> (do pure [← escape]) <|> looseMarks '"')
  let marks ← closingMarks '"'
  pure (parts.flatten ++ marks)

def literalLines : Reader (List Char) := do
  exactly ['\x27', '\x27', '\x27']
  lineBreak <|> pure ()
  let parts ← many ((do pure [← literalChar]) <|> lineFeed <|> looseMarks '\x27')
  let marks ← closingMarks '\x27'
  pure (parts.flatten ++ marks)

def string : Reader Value := do
  let text ← basicLines <|> basicString <|> literalLines <|> literalString
  pure (.string (String.ofList text))

/-- Reads digits of a class; single underscores may stand between them. -/
def digitGroup (accepts : Char → Bool) : Reader (List Char) := do
  let first ← satisfy accepts
  let others ← many (satisfy accepts <|> (do exactly ['_']; satisfy accepts))
  pure (first :: others)

def sign : Reader Bool :=
  (do exactly ['-']; pure true) <|> (do exactly ['+']; pure false) <|> pure false

/-- Reads decimal digits without a zero in front. -/
def wholeDigits : Reader (List Char) :=
  (do exactly ['0']; pure ['0']) <|> digitGroup Char.isDigit

def integerOf (value : Int) : Option Value :=
  if -0x8000_0000_0000_0000 ≤ value ∧ value < 0x8000_0000_0000_0000 then some (.integer value)
  else none

def lift {α : Type} (value : Option α) : Reader α := fun text => value.map (·, text)

def based (mark : Char) (base : Nat) (accepts : Char → Bool) : Reader Value := do
  exactly ['0', mark]
  let digits ← digitGroup accepts
  let value := digits.foldl (fun value c => base * value + (Json.hexValue? c).getD 0) 0
  lift (integerOf value)

def exponent : Reader (Bool × List Char) := do
  let _ ← satisfy (fun c => c == 'e' || c == 'E')
  let negative ← sign
  let digits ← digitGroup Char.isDigit
  pure (negative, digits)

def decimal : Reader Value := do
  let negative ← sign
  let whole ← wholeDigits
  let pointed ← flag '.'
  let fraction ← if pointed then some <$> digitGroup Char.isDigit else pure none
  let power ← (some <$> exponent) <|> pure none
  let numeral : Number.Numeral := ⟨negative, whole, fraction, power⟩
  match numeral.toInt? with
  | some value => lift (integerOf value)
  | none =>
    -- A number beyond the doubles is read as infinite where it has a minus sign.
    if negative || numeral.toDouble?.isSome then pure .float else failure

def specialFloat : Reader Value := do
  let _ ← sign
  exactly ['i', 'n', 'f'] <|> exactly ['n', 'a', 'n']
  pure .float

def boolean : Reader Value :=
  (do exactly ['t', 'r', 'u', 'e']; pure (.boolean true))
    <|> (do exactly ['f', 'a', 'l', 's', 'e']; pure (.boolean false))

def twoDigits (limit : Nat) : Reader Unit := do
  let value ← fixedNumber 2
  if limit < value then failure else pure ()

def timeOfDay : Reader Unit := do
  twoDigits 23
  exactly [':']
  twoDigits 59
  exactly [':']
  twoDigits 60
  (do exactly ['.']; let _ ← run1 Char.isDigit) <|> pure ()

def utcOffset : Reader Unit :=
  (do let _ ← satisfy (fun c => c == 'Z' || c == 'z'))
    <|> (do
      let _ ← satisfy (fun c => c == '+' || c == '-')
      twoDigits 23
      exactly [':']
      twoDigits 59)

def calendarDate : Reader Unit := do
  let year ← fixedNumber 4
  exactly ['-']
  let month ← fixedNumber 2
  exactly ['-']
  let day ← fixedNumber 2
  if (Date.mk year month day).isValid then pure () else failure

def moment : Reader Value := do
  (do calendarDate
      (do let _ ← satisfy (fun c => c == 'T' || c == 't' || c == ' ')
          timeOfDay
          utcOffset <|> pure ()) <|> pure ())
    <|> timeOfDay
  pure .moment

def scalar : Reader Value :=
  string <|> boolean <|> moment <|> based 'x' 16 isHexDigit
    <|> based 'o' 8 (fun c => '0' ≤ c && c ≤ '7') <|> based 'b' 2 (fun c => c == '0' || c == '1')
    <|> specialFloat <|> decimal

end SelectorLang.Toml
