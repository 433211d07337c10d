import SelectorLang.Selector.Basic
import SelectorLang.Text.Word
import SelectorLang.Token
/-!
Directives: `limit:N`, `offset:N`, `sort:FIELD` and `reverse:BOOL`.

Every directive is cut out of the text. Of several limits (or offsets) the first that is a number of
64 bits counts, of several sort fields the first alone is looked at, and of several reversals the
first counts.
-/

set_option autoImplicit false

namespace SelectorLang

namespace Directive

open Reader

/-- A number of 64 bits written in ASCII digits. -/
def wordOf? (digits : List Char) : Option UInt64 :=
  if digits.all Char.isDigit && !digits.isEmpty then
    let value := Nat.ofDigitChars 10 digits 0
    if value < 0x1_0000_0000_0000_0000 then some (UInt64.ofNat value) else none
  else none

def limit : Reader (Option UInt64) := do
  exactly ['l', 'i', 'm', 'i', 't', ':']
  pure (wordOf? (← run1 isDecimalDigit))

def offset : Reader (Option UInt64) := do
  exactly ['o', 'f', 'f', 's', 'e', 't', ':']
  pure (wordOf? (← run1 isDecimalDigit))

def sort : Reader (Option SortField) := do
  exactly ['s', 'o', 'r', 't', ':']
  pure (SortField.ofName? (String.ofList (← run1 isWordChar)))

def reverse : Reader Bool := do
  exactly ['r', 'e', 'v', 'e', 'r', 's', 'e', ':']
  (do exactly ['t', 'r', 'u', 'e']; pure true)
    <|> (do exactly ['f', 'a', 'l', 's', 'e']; pure false)
    <|> (do exactly ['1']; pure true)
    <|> (do exactly ['0']; pure false)

/-- The value that is set already, or else the first that was found. -/
def firstSet {α : Type} (current : Option α) (found : List (Option α)) : Option α :=
  current <|> found.findSome? id

/-- Moves all directives of a text into the options and answers with the rest of the text. -/
def extract (text : List Char) (options : Options) : List Char × Options :=
  let limits := Token.scan limit text
  let offsets := Token.scan offset (Piece.rest limits)
  let sorts := Token.scan sort (Piece.rest offsets)
  let reversals := Token.scan reverse (Piece.rest sorts)
  (Piece.rest reversals,
   { options with
     limit := firstSet options.limit (Piece.values limits)
     offset := firstSet options.offset (Piece.values offsets)
     sort := match Piece.values sorts with
       | [] => options.sort
       | first :: _ => first
     reverse := options.reverse <|> (Piece.values reversals).head? })

end Directive

end SelectorLang
