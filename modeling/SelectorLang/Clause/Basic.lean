import SelectorLang.Selector.Basic

set_option autoImplicit false

namespace SelectorLang

inductive Relation where
  | greater
  | greaterEq
  | less
  | lessEq
deriving DecidableEq, Repr

inductive Condition where
  | guid (identifier : String)
  | tag (name : String)
  | truthy (field : String)
  | equal (field : String) (value : Json)
  | contain (field : String) (value : Json)
  | regex (field pattern : String)
  | regexFold (field pattern : String)
  | like (field pattern : String)
  | likeFold (field pattern : String)
  | compare (relation : Relation) (comparison : Comparison)
  | reference (field identifier : String)
  | subquery (field : String) (query : Query)

structure Clause where
  negated : Bool
  condition : Condition

namespace Clauses

/-- Adds a clause; subqueries are not kept here. -/
def add (clauses : Clauses) (clause : Clause) : Clauses :=
  let negated := clause.negated
  match clause.condition with
  | .guid value => { clauses with guid := clauses.guid.add negated value }
  | .tag value => { clauses with tag := clauses.tag.add negated value }
  | .truthy field => { clauses with truthy := clauses.truthy.add negated field }
  | .equal field value => { clauses with equal := clauses.equal.add negated (field, value) }
  | .contain field value => { clauses with contain := clauses.contain.add negated (field, value) }
  | .regex field pattern => { clauses with regex := clauses.regex.add negated (field, pattern) }
  | .regexFold field pattern =>
    { clauses with regexFold := clauses.regexFold.add negated (field, pattern) }
  | .like field pattern => { clauses with like := clauses.like.add negated (field, pattern) }
  | .likeFold field pattern =>
    { clauses with likeFold := clauses.likeFold.add negated (field, pattern) }
  | .compare .greater comparison =>
    { clauses with greater := clauses.greater.add negated comparison }
  | .compare .greaterEq comparison =>
    { clauses with greaterEq := clauses.greaterEq.add negated comparison }
  | .compare .less comparison => { clauses with less := clauses.less.add negated comparison }
  | .compare .lessEq comparison => { clauses with lessEq := clauses.lessEq.add negated comparison }
  | .reference field value =>
    { clauses with reference := clauses.reference.add negated (field, value) }
  | .subquery _ _ => clauses

end Clauses

namespace Selector

def add (selector : Selector) (clause : Clause) : Selector :=
  match clause.condition with
  | .subquery field query =>
    { selector with subqueries := selector.subqueries.add clause.negated (field, query) }
  | _ => { selector with clauses := selector.clauses.add clause }

def addAll (selector : Selector) (clauses : List Clause) : Selector :=
  clauses.foldl add selector

/-- Puts a selector under this one, after those already there. -/
def nest (selector : Selector) (children : List Selector) : Selector :=
  { selector with
    nested := { selector.nested with positive := selector.nested.positive ++ children } }

end Selector

end SelectorLang
