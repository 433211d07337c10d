import SelectorLang.Combinator
import SelectorLang.Text.Blank
import SelectorLang.Text.Span
/-!
Parenthesised groups.

A parenthesis is structural when it stands outside quotes, outside `<{ }` reference bodies and not
after a backslash. The groups of a text are its outermost pairs of structural parentheses; what
stands around them is the remainder. A closing parenthesis without a partner is plain text, and a
group that is never closed leaves everything after its start in the remainder.
-/

set_option autoImplicit false

namespace SelectorLang

inductive Region where
  | plain
  | quoted
  /-- In a reference body, with this many braces open inside its own. -/
  | reference (inner : Nat)
deriving DecidableEq, Repr

/-- What a left-to-right look at a text remembers. -/
structure Scanner where
  region : Region := .plain
  /-- The character before is a backslash that takes the next one with it. -/
  escaped : Bool := false
  afterAngle : Bool := false
deriving DecidableEq, Repr

namespace Scanner

def regionAfter (scanner : Scanner) (c : Char) : Region :=
  match scanner.region with
  | .plain =>
    if c == '"' then .quoted
    else if c == '\x7b' && scanner.afterAngle then .reference 0
    else .plain
  | .quoted => if c == '"' then .plain else .quoted
  | .reference inner =>
    if c == '\x7b' then .reference (inner + 1)
    else if c == '\x7d' then
      match inner with
      | 0 => .plain
      | outer + 1 => .reference outer
    else .reference inner

def step (scanner : Scanner) (c : Char) : Scanner :=
  if scanner.escaped then ⟨scanner.region, false, c == '<'⟩
  else if c == '\\' then ⟨scanner.region, true, false⟩
  else ⟨scanner.regionAfter c, false, c == '<'⟩

/-- Whether the next character is outside quotes and reference bodies and not escaped. -/
def exposes (scanner : Scanner) : Bool :=
  !scanner.escaped && scanner.region == .plain

end Scanner

structure Paren where
  offset : Nat
  opens : Bool
deriving DecidableEq, Repr

namespace Paren

def scanFrom (scanner : Scanner) (offset : Nat) : List Char → List Paren
  | [] => []
  | c :: rest =>
    let others := scanFrom (scanner.step c) (offset + 1) rest
    if scanner.exposes && (c == '(' || c == ')') then ⟨offset, c == '('⟩ :: others else others

def scan (text : List Char) : List Paren := scanFrom {} 0 text

/-- The outermost pairs, given the start of the open one and how many are open inside it. -/
def outermostFrom : Option (Nat × Nat) → List Paren → List Span
  | _, [] => []
  | none, paren :: rest =>
    if paren.opens then outermostFrom (some (paren.offset, 0)) rest else outermostFrom none rest
  | some (start, inner), paren :: rest =>
    if paren.opens then outermostFrom (some (start, inner + 1)) rest
    else match inner with
      | 0 => ⟨start, paren.offset + 1⟩ :: outermostFrom none rest
      | outer + 1 => outermostFrom (some (start, outer)) rest

/-- The spans of the outermost matched pairs, parentheses included. -/
def outermost (parens : List Paren) : List Span := outermostFrom none parens

end Paren

structure Group where
  span : Span
  kind : Combinator
  /-- What follows the marker, up to the closing parenthesis. -/
  body : List Char
deriving DecidableEq, Repr

namespace Group

def content (text : List Char) (span : Span) : List Char :=
  (Span.mk (span.start + 1) (span.stop - 1)).slice text

def ofSpan (text : List Char) (span : Span) : Group :=
  let (kind, body) := Combinator.takeMarker (Text.trimStart (content text span))
  ⟨span, kind, body⟩

/-- The span in bytes of the text's UTF-8 form. -/
def byteSpan (text : List Char) (group : Group) : Nat × Nat :=
  (Text.byteLength (text.take group.span.start), Text.byteLength (text.take group.span.stop))

end Group

structure Split where
  groups : List Group
  /-- The text with every group replaced by one space. -/
  remainder : List Char
deriving DecidableEq, Repr

def split (text : List Char) : Split :=
  let spans := Paren.outermost (Paren.scan text)
  ⟨spans.map (Group.ofSpan text), Span.blankOut spans text⟩

end SelectorLang
