import SelectorLang.Text.Fold
/-!
Escaping in delimited literals.

A literal may contain its own delimiters when each stands after a backslash; a backslash itself is
written twice. Quoted literals stand between double quotes, angle literals between `<` and `>`, and
curly literals between `{` and `}`.
-/

set_option autoImplicit false

namespace SelectorLang

inductive LiteralKind where
  | quote
  | angle
  | curly
deriving DecidableEq, Repr

namespace LiteralKind

def isDelimiter : LiteralKind → Char → Bool
  | .quote, c => c == '"'
  | .angle, c => c == '<' || c == '>'
  | .curly, c => c == '\x7b' || c == '\x7d'

def name : LiteralKind → String
  | .quote => "quote"
  | .angle => "angle"
  | .curly => "curly"

/-- Reads a kind by its name, by the plural of its name or by its delimiters, in any letter case. -/
def ofName? (text : String) : Option LiteralKind :=
  let folded := String.ofList (Text.fold text.toList)
  if folded = "quote" ∨ folded = "quotes" ∨ folded = "\"" then some .quote
  else if folded = "angle" ∨ folded = "angles" ∨ folded = "<>" then some .angle
  else if folded = "curly" ∨ folded = "curlies" ∨ folded = "\x7b\x7d" then some .curly
  else none

/-- Puts a backslash before every backslash and delimiter. -/
def escape (kind : LiteralKind) : List Char → List Char
  | [] => []
  | c :: rest =>
    if c == '\\' || kind.isDelimiter c then '\\' :: c :: escape kind rest
    else c :: escape kind rest

/-- Drops a backslash that stands before a backslash or a delimiter; any other backslash stays. -/
def unescape (kind : LiteralKind) : List Char → List Char
  | [] => []
  | [c] => [c]
  | c :: next :: rest =>
    if c == '\\' && (next == '\\' || kind.isDelimiter next) then next :: unescape kind rest
    else c :: unescape kind (next :: rest)

theorem unescape_escape (kind : LiteralKind) (text : List Char) :
    kind.unescape (kind.escape text) = text := by
  induction text with
  | nil => rfl
  | cons c rest ih =>
    rw [escape]
    split
    · next special =>
      simp only [unescape, beq_self_eq_true, special, Bool.and_self, ↓reduceIte, ih]
    · next ordinary =>
      have plain : (c == '\\') = false := by
        cases backslash : c == '\\' with
        | false => rfl
        | true => exact absurd (by simp only [backslash, Bool.true_or]) ordinary
      cases tail : kind.escape rest with
      | nil =>
        rw [tail, unescape] at ih
        rw [unescape, ← ih]
      | cons next others =>
        rw [tail] at ih
        simp only [unescape, plain, Bool.false_and, Bool.false_eq_true, ↓reduceIte, ih]

end LiteralKind

end SelectorLang
