import SelectorLang.Text.Blank
import SelectorLang.Text.Reader
import SelectorLang.Text.Span
/-!
Quoted and slashed literals.

A literal's body runs up to its first closing delimiter that no backslash takes with it; a backslash
takes any character but a line feed. The literals of a text are those that follow an operator and
end a word, read from left to right without overlap. A token that starts inside one belongs to the
literal and is no clause of its own.
-/

set_option autoImplicit false

namespace SelectorLang

namespace Reader

/-- Reads on to the first character of the class `closes` that no backslash takes with it. The
reading stops early at a backslash that has nothing to take. -/
def escapedRun (closes : Char → Bool) : Reader (List Char) := fun text =>
  some (go text)
where
  go : List Char → List Char × List Char
    | [] => ([], [])
    | [c] => if c == '\\' || closes c then ([], [c]) else ([c], [])
    | c :: next :: rest =>
      if c == '\\' then
        if next == '\n' then ([], c :: next :: rest)
        else
          let (body, after) := go rest
          (c :: next :: body, after)
      else if closes c then ([], c :: next :: rest)
      else
        let (body, after) := go (next :: rest)
        (c :: body, after)

def escapedRun1 (closes : Char → Bool) : Reader (List Char) := do
  let body ← escapedRun closes
  if body.isEmpty then failure else pure body

/-- Reads a double-quoted literal and answers its body, still escaped. -/
def quoted : Reader (List Char) := do
  exactly ['"']
  let body ← escapedRun (· == '"')
  exactly ['"']
  pure body

def quoted1 : Reader (List Char) := do
  let body ← quoted
  if body.isEmpty then failure else pure body

/-- Reads a non-empty literal between slashes and answers its body, still escaped. -/
def slashed : Reader (List Char) := do
  exactly ['/']
  let body ← escapedRun1 (· == '/')
  exactly ['/']
  pure body

/-- Reads the blank that ends a word; the end of the text ends one too. -/
def wordEnd : Reader Unit := fun text =>
  match text with
  | [] => some ((), [])
  | c :: rest => if isBlank c then some ((), rest) else none

end Reader

namespace Literal

open Reader

/-- Reads an operator, the literal after it and the end of the word. -/
def operand : Reader Unit := do
  let operator ← satisfy (fun c => c == '=' || c == '~' || c == '<' || c == '>')
  (do let _ ← quoted
      let folds ← flag 'i'
      if folds then pure () else let _ ← flag '>'
      wordEnd)
  <|> (do if operator == '~' then pure () else failure
          let _ ← slashed
          let _ ← flag 'i'
          wordEnd)

/-- The literals from an offset on, after leaving out `skip` characters. -/
def spansFrom : Nat → Nat → List Char → List Span
  | _, _, [] => []
  | skip + 1, offset, _ :: rest => spansFrom skip (offset + 1) rest
  | 0, offset, c :: rest =>
    match operand (c :: rest) with
    | some (_, after) =>
      let length := rest.length - after.length
      ⟨offset + 1, offset + 1 + length⟩ :: spansFrom length (offset + 1) rest
    | none => spansFrom 0 (offset + 1) rest

/-- The spans of a text's literals, each with the blank that ends its word. -/
def spans (text : List Char) : List Span := spansFrom 0 0 text

end Literal

end SelectorLang
