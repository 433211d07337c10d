import SelectorLang.Selector.Basic

set_option autoImplicit false

namespace SelectorLang

mutual

def Selector.same : Selector → Selector → Bool
  | ⟨kind, clauses, ⟨subqueries, notSubqueries⟩, ⟨nested, notNested⟩⟩, other =>
    kind == other.kind && clauses == other.clauses &&
      Query.sameEntries subqueries other.subqueries.positive &&
      Query.sameEntries notSubqueries other.subqueries.negative &&
      Selector.sameAll nested other.nested.positive &&
      Selector.sameAll notNested other.nested.negative
termination_by structural selector => selector

def Query.same : Query → Query → Bool
  | ⟨options, selectors⟩, other =>
    options == other.options && Selector.sameAll selectors other.selectors
termination_by structural query => query

def Selector.sameAll : List Selector → List Selector → Bool
  | [], [] => true
  | left :: lefts, right :: rights => left.same right && Selector.sameAll lefts rights
  | _, _ => false
termination_by structural lefts => lefts

def Query.sameEntries : List (String × Query) → List (String × Query) → Bool
  | [], [] => true
  | (field, left) :: lefts, (other, right) :: rights =>
    field == other && left.same right && Query.sameEntries lefts rights
  | _, _ => false
termination_by structural lefts => lefts

end

mutual

theorem Selector.same_iff (left right : Selector) : left.same right = true ↔ left = right := by
  obtain ⟨kind, clauses, ⟨subqueries, notSubqueries⟩, ⟨nested, notNested⟩⟩ := left
  obtain ⟨otherKind, otherClauses, ⟨_, _⟩, ⟨_, _⟩⟩ := right
  simp only [Selector.same, Bool.and_eq_true, beq_iff_eq, Query.sameEntries_iff,
    Selector.sameAll_iff, Selector.mk.injEq, Signed.mk.injEq, and_assoc]
termination_by structural left

theorem Query.same_iff (left right : Query) : left.same right = true ↔ left = right := by
  obtain ⟨options, selectors⟩ := left
  obtain ⟨otherOptions, otherSelectors⟩ := right
  simp only [Query.same, Bool.and_eq_true, beq_iff_eq, Selector.sameAll_iff, Query.mk.injEq]
termination_by structural left

theorem Selector.sameAll_iff (lefts rights : List Selector) :
    Selector.sameAll lefts rights = true ↔ lefts = rights := by
  cases lefts <;> cases rights <;>
    simp only [Selector.sameAll, Bool.and_eq_true, List.cons.injEq, reduceCtorEq,
      Selector.same_iff, Selector.sameAll_iff, Bool.false_eq_true]
termination_by structural lefts

theorem Query.sameEntries_iff (lefts rights : List (String × Query)) :
    Query.sameEntries lefts rights = true ↔ lefts = rights := by
  cases lefts with
  | nil => cases rights <;> simp only [Query.sameEntries, reduceCtorEq, Bool.false_eq_true]
  | cons first lefts =>
    obtain ⟨field, left⟩ := first
    cases rights with
    | nil => simp only [Query.sameEntries, reduceCtorEq, Bool.false_eq_true]
    | cons second rights =>
      obtain ⟨other, right⟩ := second
      simp only [Query.sameEntries, Bool.and_eq_true, beq_iff_eq, Query.same_iff,
        Query.sameEntries_iff, List.cons.injEq, Prod.mk.injEq]
termination_by structural lefts

end

instance : DecidableEq Selector :=
  fun left right => decidable_of_iff _ (Selector.same_iff left right)

instance : DecidableEq Query := fun left right => decidable_of_iff _ (Query.same_iff left right)

end SelectorLang
