import SelectorLang.Clause.Reader
import SelectorLang.Token
/-!
Stages: the order in which clause kinds are taken out of a text.

Kinds share characters, so a stage for a narrower form runs before a stage that would read the same
token otherwise. Each stage reads its own kind everywhere in the text that the stages before it
left, and what it reads is cut out.
-/

set_option autoImplicit false

namespace SelectorLang

/-- The tokens of one clause kind, read in one or more passes over the text. -/
structure Stage where
  name : String
  passes : List (Reader (Option Clause))

namespace Stage

def runPass (reader : Reader (Option Clause)) (text : List Char) : List Char × List Clause :=
  let pieces := Token.scan reader text
  (Piece.rest pieces, (Piece.values pieces).filterMap id)

def runPasses : List (Reader (Option Clause)) → List Char → Selector → List Char × Selector
  | [], text, selector => (text, selector)
  | reader :: others, text, selector =>
    let (rest, clauses) := runPass reader text
    runPasses others rest (selector.addAll clauses)

def run (stage : Stage) (text : List Char) (selector : Selector) : List Char × Selector :=
  runPasses stage.passes text selector

/-- The passes of an ordering relation: numbers before time expressions. -/
def ordering (name : String) (relation : Relation) : Stage :=
  ⟨name, [Clause.absolute relation, Clause.relative relation]⟩

/-- All stages in their order; `embed` makes the queries of references. -/
def all (embed : List Char → List Char → Option Query) : List Stage :=
  [⟨"qref", [Clause.subquery embed]⟩,
   ⟨"equal", [Clause.equal]⟩,
   ⟨"ref", [Clause.reference]⟩,
   ⟨"contain", [Clause.contain]⟩,
   ⟨"match", [Clause.regex]⟩,
   ⟨"like", [Clause.like]⟩,
   ⟨"guid", [Clause.guid]⟩,
   ⟨"truthy", [Clause.truthy]⟩,
   ⟨"tag", [Clause.tag]⟩,
   ordering "gt" .greater,
   ordering "gte" .greaterEq,
   ordering "lt" .less,
   ordering "lte" .lessEq]

def runAll : List Stage → List Char → Selector → List Char × Selector
  | [], text, selector => (text, selector)
  | stage :: others, text, selector =>
    let (rest, filled) := stage.run text selector
    runAll others rest filled

/-- What the stages that find a token leave behind: the stage's name, the text and the selector
after it. -/
def trace : List Stage → List Char → Selector → List (String × List Char × Selector)
  | [], _, _ => []
  | stage :: others, text, selector =>
    let (rest, filled) := stage.run text selector
    let later := trace others rest filled
    if rest = text then later else (stage.name, rest, filled) :: later

end Stage

end SelectorLang
