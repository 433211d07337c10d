import SelectorLang.Clause.Basic
import SelectorLang.Escape
import SelectorLang.Json.Reader
import SelectorLang.Literal
import SelectorLang.Text.Word
/-!
Reading the tokens of single clauses.

Every reader below answers with the clause of the token it read. A token may also say nothing: a
subquery that cannot be had and a number that no double can hold are read and dropped.
-/

set_option autoImplicit false

namespace SelectorLang

namespace Number

/-- The number of an ordering clause's numeral. Whole numbers of 64 bits with a sign stay exact;
only ASCII digits count. -/
def ofOperand? (numeral : Numeral) : Option Number :=
  let digits := numeral.wholeDigits ++ numeral.fractionDigits.getD []
  if !digits.all Char.isDigit then none
  else
    let rounded := numeral.toDouble?.map Number.double
    match numeral.toInt? with
    | none => rounded
    | some value =>
      if h : -0x8000_0000_0000_0000 ≤ value ∧ value < 0x8000_0000_0000_0000 then
        some (.whole value (fits_of_signed h))
      else rounded

end Number

namespace Relation

def sign : Relation → List Char
  | .greater => ['>']
  | .greaterEq => ['>', '=']
  | .less => ['<']
  | .lessEq => ['<', '=']

/-- Whether an unquoted operand of the relation may begin with the character: what would make its
sign a longer one may not. -/
def startsOperand : Relation → Char → Bool
  | .greater, c | .less, c => c != '='
  | .greaterEq, _ | .lessEq, _ => true

end Relation

namespace Clause

open Reader

/-- Reads a field and the mark that negates the clause. -/
def target : Reader (String × Bool) := do
  let name ← run1 isFieldChar
  let negated ← flag '!'
  pure (String.ofList name, negated)

/-- Reads an unquoted operand: the rest of the word, if its first character is of the class and no
quote. -/
def plainOperand (starts : Char → Bool) : Reader (List Char) := do
  let first ← satisfy (fun c => !isBlank c && c != '"' && starts c)
  let others ← run (fun c => !isBlank c)
  pure (first :: others)

/-- Whether the text is an entity identifier: 24 hexadecimal digits. -/
def isIdentifier (text : List Char) : Bool := text.length == 24 && text.all isHexDigit

def identifier : Reader String := do
  let digits ← run isHexDigit
  if isIdentifier digits then pure (String.ofList digits) else failure

/-- The value that an operand spells: JSON where it is JSON, else the text itself. -/
def valueOf (text : List Char) : Json :=
  (Json.ofText? text).getD (.string (String.ofList text))

def unquoted (body : List Char) : String := String.ofList (LiteralKind.unescape .quote body)

def onField (target : String × Bool) (condition : String → Condition) : Option Clause :=
  some ⟨target.2, condition target.1⟩

/-- Reads `field<{Class query}>`; `embed` makes the query for a class and a text, if it can. -/
def subquery (embed : List Char → List Char → Option Query) : Reader (Option Clause) := do
  let (field, negated) ← target
  exactly ['<', '\x7b']
  let body ← escapedRun1 (· == '\x7d')
  exactly ['\x7d', '>']
  if isIdentifier body then failure
  else
    let (className, text) := Text.cutAtBlank (Text.trim (LiteralKind.unescape .curly body))
    pure ((embed className text).map (fun query => ⟨negated, .subquery field query⟩))

/-- Reads `field=value`. -/
def equal : Reader (Option Clause) := do
  let subject ← target
  exactly ['=']
  let value ← (do pure (Json.string (unquoted (← quoted)))) <|>
    (do pure (valueOf (← plainOperand (fun _ => true))))
  pure (onField subject (.equal · value))

/-- Reads `field<{identifier}>`. -/
def reference : Reader (Option Clause) := do
  let subject ← target
  exactly ['<', '\x7b']
  let value ← identifier
  exactly ['\x7d', '>']
  pure (onField subject (.reference · value))

/-- Reads `field<value>`. -/
def contain : Reader (Option Clause) := do
  let subject ← target
  exactly ['<']
  let body ← escapedRun1 (fun c => c == '<' || c == '>')
  exactly ['>']
  pure (onField subject (.contain · (valueOf (LiteralKind.unescape .angle body))))

def unslashed : List Char → List Char
  | '\\' :: '/' :: rest => '/' :: unslashed rest
  | c :: rest => c :: unslashed rest
  | [] => []

/-- Reads `field~/pattern/` and `field~/pattern/i`. -/
def regex : Reader (Option Clause) := do
  let subject ← target
  exactly ['~']
  let body ← slashed
  let folds ← flag 'i'
  let pattern := String.ofList (unslashed body)
  pure (onField subject (fun field =>
    if folds then .regexFold field pattern else .regex field pattern))

/-- Reads `field~"pattern"`, `field~"pattern"i` and `field~pattern`. -/
def like : Reader (Option Clause) := do
  let subject ← target
  exactly ['~']
  (do let pattern := unquoted (← quoted)
      let folds ← flag 'i'
      pure (onField subject (fun field =>
        if folds then .likeFold field pattern else .like field pattern)))
  <|> (do
      let pattern ← plainOperand (fun _ => true)
      pure (onField subject (.like · (String.ofList pattern))))

/-- Reads `{identifier}`. -/
def guid : Reader (Option Clause) := do
  exactly ['\x7b']
  let negated ← flag '!'
  let value ← identifier
  exactly ['\x7d']
  pure (some ⟨negated, .guid value⟩)

/-- Reads `[field]`. -/
def truthy : Reader (Option Clause) := do
  exactly ['[']
  let negated ← flag '!'
  let field ← run1 isFieldChar
  exactly [']']
  pure (some ⟨negated, .truthy (String.ofList field)⟩)

/-- Reads `<tag>`. -/
def tag : Reader (Option Clause) := do
  exactly ['<']
  let negated ← flag '!'
  let inTag (c : Char) : Bool := !isBlank c && c != '<' && c != '>'
  let first ← satisfy (fun c => inTag c && c != '!')
  let others ← run inTag
  exactly ['>']
  pure (some ⟨negated, .tag (String.ofList (first :: others))⟩)

def numeral : Reader Number.Numeral := do
  let negative ← flag '-'
  let digits ← run1 isDecimalDigit
  let pointed ← flag '.'
  let fraction ← if pointed then some <$> run1 isDecimalDigit else pure none
  pure ⟨negative, digits, fraction, none⟩

/-- Reads a field, the sign of a relation and a numeral. -/
def absolute (relation : Relation) : Reader (Option Clause) := do
  let (field, negated) ← target
  exactly relation.sign
  let operand ← numeral
  pure ((Number.ofOperand? operand).map (fun number =>
    ⟨negated, .compare relation (.absolute field number)⟩))

/-- Reads a field, the sign of a relation and a time expression. -/
def relative (relation : Relation) : Reader (Option Clause) := do
  let subject ← target
  exactly relation.sign
  let expression ← (do pure (unquoted (← quoted1))) <|>
    (do pure (String.ofList (← plainOperand relation.startsOperand)))
  pure (onField subject (fun field => .compare relation (.relative field expression)))

end Clause

end SelectorLang
