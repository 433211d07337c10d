import SelectorLang.BareText
import SelectorLang.Clause.Stage
import SelectorLang.Directive
import SelectorLang.Error
import SelectorLang.Group
/-!
Compiling query texts.

A text is divided into its groups and the text around them. The groups become nested selectors; out
of the rest come the directives, at the outermost level only, then the clauses, and what remains is
bare text. Groups and subqueries nest no deeper than a limit: what lies below it is left out.
Compiling never fails.
-/

set_option autoImplicit false

namespace SelectorLang

def standardFields : List String := ["name"]

def standardDepth : Nat := 32

structure Compiler where
  defaultFields : List String := standardFields
  /-- The classes that subqueries may name, each name once. -/
  classes : List EntityClass := []
  bareHandler : BareHandler := BareText.search
  maxDepth : Nat := standardDepth

namespace Compiler

/-- Adds a class; a class of the same name is replaced. -/
def register (compiler : Compiler) (cls : EntityClass) : Compiler :=
  { compiler with
    classes := cls :: compiler.classes.filter (fun other => other.name != cls.name) }

def class? (compiler : Compiler) (name : String) : Option EntityClass :=
  compiler.classes.find? (fun cls => cls.name == name)

def searchFields (compiler : Compiler) (cls : EntityClass) : List String :=
  if cls.searchFields.isEmpty then compiler.defaultFields else cls.searchFields

/-- The selector for what the stages leave of a text. -/
def bareSelector (compiler : Compiler) (cls : EntityClass) (rest : List Char) : Option Selector :=
  (BareText.ofRest? rest).bind
    (fun text => compiler.bareHandler text cls (compiler.searchFields cls))

/-- The compilers for what stands one level deeper. -/
structure Inner where
  group : Group → Option Selector
  query : EntityClass → List Char → Option Query

def Inner.nothing : Inner := ⟨fun _ => none, fun _ _ => none⟩

def embed (compiler : Compiler) (inner : Inner) (className text : List Char) : Option Query :=
  (compiler.class? (String.ofList className)).bind (fun target => inner.query target text)

/-- Runs the stages on a text, with the groups it was divided from already nested. -/
def fill (compiler : Compiler) (inner : Inner) (kind : Combinator) (groups : List Group)
    (text : List Char) : List Char × Selector :=
  Stage.runAll (Stage.all (compiler.embed inner)) text
    (({ kind := kind } : Selector).nest (groups.filterMap inner.group))

/-- Compiles a group. Bare text is nested under the group, so that its combinator reaches it; a
group with nothing in it is left out. -/
def groupWith (compiler : Compiler) (collapse : Selector → Selector) (inner : Inner)
    (cls : EntityClass) (group : Group) : Option Selector :=
  let parts := split group.body
  let (rest, filled) := compiler.fill inner group.kind parts.groups parts.remainder
  let selector := filled.nest (compiler.bareSelector cls rest).toList
  if selector.isEmpty then none else some (collapse selector)

/-- Compiles a query text. Bare text stands beside the selector of the clauses, and takes its place
where there are none. -/
def queryWith (compiler : Compiler) (collapse : Selector → Selector) (inner : Inner)
    (cls : EntityClass) (text : List Char) : Query :=
  let parts := split text
  let (plain, options) := Directive.extract parts.remainder { className := cls.name }
  let (rest, filled) := compiler.fill inner .allOf parts.groups plain
  let bare := compiler.bareSelector cls rest
  let selector := collapse filled
  let own := if selector.isEmpty && bare.isSome then [] else [selector]
  ⟨options, own ++ bare.toList⟩

/-- The compilers for what stands deeper, when `depth` more levels may follow. -/
def innerAt (compiler : Compiler) (collapse : Selector → Selector) :
    Nat → EntityClass → Inner
  | 0, _ => .nothing
  | below + 1, cls =>
    { group := fun group =>
        compiler.groupWith collapse (innerAt compiler collapse below cls) cls group
      query := fun target text =>
        some (compiler.queryWith collapse (innerAt compiler collapse below target) target text) }

/-- Compiles a query text under which `depth` more levels may follow. -/
def queryAt (compiler : Compiler) (collapse : Selector → Selector) (depth : Nat)
    (cls : EntityClass) (text : List Char) : Query :=
  compiler.queryWith collapse (compiler.innerAt collapse depth cls) cls text

def compile (compiler : Compiler) (text : String) (cls : EntityClass) : Query :=
  compiler.queryAt Selector.simplify compiler.maxDepth cls text.toList

def compileFor (compiler : Compiler) (text name : String) : Except QueryError Query :=
  match compiler.class? name with
  | some cls => .ok (compiler.compile text cls)
  | none => .error (.unknownClass name)

/-- The stages that a text at a depth goes through. -/
def stagesAt (compiler : Compiler) (depth : Nat) (cls : EntityClass) : List Stage :=
  Stage.all (compiler.embed
    (compiler.innerAt Selector.simplify (compiler.maxDepth - depth) cls))

end Compiler

end SelectorLang
