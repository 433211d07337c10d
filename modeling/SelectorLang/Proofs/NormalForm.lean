import SelectorLang.Proofs.Filling

set_option autoImplicit false

namespace SelectorLang

mutual

/-- The selector and all that stands under it, queries included, is in normal form. -/
inductive Selector.Normal : Selector → Prop
  | mk (selector : Selector)
      (unwrapped : selector.kind.negates = false → selector.clauseCount = 1 →
        selector.nested.size = 0)
      (simplified : selector.simplify = selector)
      (nonempty : ∀ negated, ∀ child ∈ selector.nested.side negated, child.isEmpty = false)
      (nested : ∀ negated, ∀ child ∈ selector.nested.side negated, child.Normal)
      (subqueries : ∀ negated, ∀ entry ∈ selector.subqueries.side negated, entry.2.Normal) :
      Selector.Normal selector

/-- The query has one or two selectors in normal form; an empty one stands alone and asks that all
of nothing holds. -/
inductive Query.Normal : Query → Prop
  | mk (query : Query) (count : query.selectors.length = 1 ∨ query.selectors.length = 2)
      (empty : ∀ selector ∈ query.selectors, selector.isEmpty = true →
        query.selectors = [selector] ∧ selector.kind = .allOf)
      (selectors : ∀ selector ∈ query.selectors, selector.Normal) : Query.Normal query

end

mutual

/-- A tree made by compiling: every node is an answer of the bare text handler, or has neither
defined fields nor negated nodes; every query in it is for a registered class. -/
inductive Compiler.Makes (compiler : Compiler) : Selector → Prop
  | bare (text : String) (cls : EntityClass) (fields : List String) (selector : Selector)
      (answer : compiler.bareHandler text cls fields = some selector) : compiler.Makes selector
  | node (selector : Selector) (defined : selector.clauses.defined = {})
      (positive : selector.nested.negative = [])
      (nested : ∀ child ∈ selector.nested.positive, compiler.Makes child)
      (registered : ∀ negated, ∀ entry ∈ selector.subqueries.side negated,
        ∃ target ∈ compiler.classes, entry.2.options.className = target.name)
      (subqueries : ∀ negated, ∀ entry ∈ selector.subqueries.side negated,
        compiler.MakesQuery entry.2) : compiler.Makes selector

inductive Compiler.MakesQuery (compiler : Compiler) : Query → Prop
  | mk (query : Query) (selectors : ∀ selector ∈ query.selectors, compiler.Makes selector) :
      compiler.MakesQuery query

end

/-- The handler answers with nothing or with a normal selector that has clauses of its own and no
selector under it. -/
def BareHandler.Normal (handler : BareHandler) : Prop :=
  ∀ text cls fields selector, handler text cls fields = some selector →
    selector.isEmpty = false ∧ selector.nested = {} ∧ selector.Normal

namespace Selector

/-- A positive node that stands for the single node under it. -/
def Wraps (selector child : Selector) : Prop :=
  selector.nested.positive = [child] ∧ selector.kind.negates = false ∧ selector.clauseCount = 1

theorem simplify_of_wraps {selector child : Selector} (wraps : selector.Wraps child) :
    selector.simplify = child := by
  obtain ⟨only, kind, count⟩ := wraps
  simp only [simplify, only, kind, count, beq_self_eq_true, Bool.not_false, Bool.and_self,
    ↓reduceIte]

theorem simplify_of_not_wraps {selector : Selector} (other : ∀ child, ¬selector.Wraps child) :
    selector.simplify = selector := by
  rw [simplify]
  split
  · rename_i child only
    split
    · rename_i condition
      rw [Bool.and_eq_true, Bool.not_eq_true', beq_iff_eq] at condition
      exact absurd ⟨only, condition⟩ (other child)
    · rfl
  · rfl

/-- What a node has to fulfil before it is simplified. -/
structure Proper (compiler : Compiler) (selector : Selector) : Prop where
  defined : selector.clauses.defined = {}
  positive : selector.nested.negative = []
  nonempty : ∀ child ∈ selector.nested.positive, child.isEmpty = false
  normal : ∀ child ∈ selector.nested.positive, child.Normal
  made : ∀ child ∈ selector.nested.positive, compiler.Makes child
  registered : ∀ negated, ∀ entry ∈ selector.subqueries.side negated,
    ∃ target ∈ compiler.classes, entry.2.options.className = target.name
  subqueries : ∀ negated, ∀ entry ∈ selector.subqueries.side negated,
    entry.2.Normal ∧ compiler.MakesQuery entry.2

namespace Proper

variable {compiler : Compiler} {selector : Selector}

theorem makes (proper : selector.Proper compiler) : compiler.Makes selector :=
  .node selector proper.defined proper.positive proper.made proper.registered
    (fun negated entry member => (proper.subqueries negated entry member).2)

/-- A node that simplifying leaves is normal. -/
theorem normal_of_fixed (proper : selector.Proper compiler)
    (unwrapped : selector.kind.negates = false → selector.clauseCount = 1 →
      selector.nested.size = 0)
    (simplified : selector.simplify = selector) : selector.Normal := by
  have side : ∀ negated, ∀ child ∈ selector.nested.side negated,
      child ∈ selector.nested.positive := by
    intro negated child member
    cases negated with
    | false => exact member
    | true =>
      rw [Signed.side, if_pos rfl, proper.positive] at member
      cases member
  exact .mk selector unwrapped simplified
    (fun negated child member => proper.nonempty child (side negated child member))
    (fun negated child member => proper.normal child (side negated child member))
    (fun negated entry member => (proper.subqueries negated entry member).1)

theorem size_of_not_wraps (proper : selector.Proper compiler)
    (other : ∀ child, ¬selector.Wraps child) (kind : selector.kind.negates = false)
    (count : selector.clauseCount = 1) : selector.nested.size = 0 := by
  have size : selector.nested.size = selector.nested.positive.length := by
    rw [Signed.size, proper.positive, List.length_nil, Nat.add_zero]
  rw [size]
  cases children : selector.nested.positive with
  | nil => rfl
  | cons child others =>
    exfalso
    cases others with
    | nil => exact other child ⟨children, kind, count⟩
    | cons second others =>
      rw [children, List.length_cons, List.length_cons] at size
      rw [clauseCount, size] at count
      omega

/-- Simplifying makes a proper node normal; it makes no node empty and leaves an empty one. -/
theorem simplify (proper : selector.Proper compiler) :
    selector.simplify.Normal ∧ compiler.Makes selector.simplify ∧
      (selector.isEmpty = false → selector.simplify.isEmpty = false) ∧
      (selector.isEmpty = true → selector.simplify = selector) := by
  by_cases single : ∃ child, selector.Wraps child
  · obtain ⟨child, wraps⟩ := single
    have member : child ∈ selector.nested.positive := by
      rw [wraps.1]
      exact List.mem_singleton_self child
    have full : selector.isEmpty = false := by
      rw [isEmpty, wraps.2.2]
      rfl
    rw [simplify_of_wraps wraps]
    refine ⟨proper.normal child member, proper.made child member, ?_, ?_⟩
    · intro _
      exact proper.nonempty child member
    · intro empty
      rw [full] at empty
      cases empty
  · have other : ∀ child, ¬selector.Wraps child := fun child wraps => single ⟨child, wraps⟩
    have same := simplify_of_not_wraps other
    have unwrapped := proper.size_of_not_wraps other
    rw [same]
    exact ⟨proper.normal_of_fixed unwrapped same, proper.makes, id, fun _ => rfl⟩

end Proper

end Selector

namespace Compiler

variable {compiler : Compiler}

end Compiler

theorem Selector.normal_leaf (kind : Combinator) (clauses : Clauses) :
    Selector.Normal { kind := kind, clauses := clauses } := by
  refine .mk _ (fun _ _ => rfl) rfl ?_ ?_ ?_
  · intro negated child member
    cases negated <;> cases member
  · intro negated child member
    cases negated <;> cases member
  · intro negated entry member
    cases negated <;> cases member

theorem BareText.search_normal : BareText.search.Normal := by
  intro text cls fields selector answer
  cases fields with
  | nil => cases answer
  | cons field others =>
    simp only [search, List.isEmpty_cons, Bool.false_eq_true, ↓reduceIte, Option.some.injEq]
      at answer
    rw [← answer]
    refine ⟨?_, rfl, Selector.normal_leaf _ _⟩
    simp [Selector.isEmpty, Selector.clauseCount, Clauses.count, Signed.size]

end SelectorLang
