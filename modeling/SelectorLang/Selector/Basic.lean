import SelectorLang.Combinator
import SelectorLang.Json.Basic

set_option autoImplicit false

namespace SelectorLang

/-- What a query asks for: the class's name and the fields that plain words are looked up in. -/
structure EntityClass where
  name : String
  /-- Empty where the class leaves the choice to the compiler's settings. -/
  searchFields : List String := []
deriving DecidableEq, Repr

inductive SortField where
  | created
  | modified
  | identifier
deriving DecidableEq, Repr

namespace SortField

def name : SortField → String
  | .created => "cdate"
  | .modified => "mdate"
  | .identifier => "guid"

def ofName? (text : String) : Option SortField :=
  if text = "cdate" then some .created
  else if text = "mdate" then some .modified
  else if text = "guid" then some .identifier
  else none

end SortField

structure Options where
  className : String
  limit : Option UInt64 := none
  offset : Option UInt64 := none
  sort : Option SortField := none
  reverse : Option Bool := none
deriving DecidableEq, Repr

/-- Things that have to hold and things that have to fail. -/
structure Signed (α : Type) where
  positive : List α := []
  negative : List α := []
deriving DecidableEq, Repr

namespace Signed

variable {α : Type}

def size (lists : Signed α) : Nat := lists.positive.length + lists.negative.length

def add (lists : Signed α) (negated : Bool) (item : α) : Signed α :=
  if negated then { lists with negative := lists.negative ++ [item] }
  else { lists with positive := lists.positive ++ [item] }

end Signed

/-- The right side of an ordering clause, with the field on its left. -/
inductive Comparison where
  | absolute (field : String) (number : Number)
  /-- A time expression, kept as written. -/
  | relative (field : String) (expression : String)
deriving DecidableEq, Repr

namespace Comparison

def field : Comparison → String
  | .absolute field _ => field
  | .relative field _ => field

end Comparison

structure Clauses where
  guid : Signed String := {}
  tag : Signed String := {}
  defined : Signed String := {}
  truthy : Signed String := {}
  equal : Signed (String × Json) := {}
  contain : Signed (String × Json) := {}
  regex : Signed (String × String) := {}
  /-- Regular expressions without regard to letter case. -/
  regexFold : Signed (String × String) := {}
  like : Signed (String × String) := {}
  /-- LIKE patterns without regard to letter case. -/
  likeFold : Signed (String × String) := {}
  greater : Signed Comparison := {}
  greaterEq : Signed Comparison := {}
  less : Signed Comparison := {}
  lessEq : Signed Comparison := {}
  /-- References to an entity by its identifier. -/
  reference : Signed (String × String) := {}
deriving DecidableEq, Repr

namespace Clauses

def count (clauses : Clauses) : Nat :=
  clauses.guid.size + clauses.tag.size + clauses.defined.size + clauses.truthy.size +
  clauses.equal.size + clauses.contain.size +
  clauses.regex.size + clauses.regexFold.size + clauses.like.size + clauses.likeFold.size +
  clauses.greater.size + clauses.greaterEq.size + clauses.less.size + clauses.lessEq.size +
  clauses.reference.size

end Clauses

mutual

structure Selector where
  kind : Combinator
  clauses : Clauses := {}
  /-- Fields that refer to an entity for which a query holds. -/
  subqueries : Signed (String × Query) := {}
  nested : Signed Selector := {}

structure Query where
  options : Options
  selectors : List Selector

end

namespace Selector

/-- The number of clauses of the node itself; a nested selector counts as one. -/
def clauseCount (selector : Selector) : Nat :=
  selector.clauses.count + selector.subqueries.size + selector.nested.size

def isEmpty (selector : Selector) : Bool := selector.clauseCount == 0

/-- A positive node with a single positive selector under it and no other clause becomes that
selector. -/
def simplify (selector : Selector) : Selector :=
  match selector.nested.positive with
  | [child] =>
    if !selector.kind.negates && selector.clauseCount == 1 then child else selector
  | _ => selector

end Selector

end SelectorLang
