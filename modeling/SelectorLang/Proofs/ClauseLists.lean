import SelectorLang.Clause.Basic

set_option autoImplicit false

namespace SelectorLang

inductive Family where
  | guid
  | tag
  | truthy
  | equal
  | contain
  | regex
  | regexFold
  | like
  | likeFold
  | compare (relation : Relation)
  | reference
  | subquery
deriving DecidableEq

def Condition.family : Condition → Family
  | .guid _ => .guid
  | .tag _ => .tag
  | .truthy _ => .truthy
  | .equal _ _ => .equal
  | .contain _ _ => .contain
  | .regex _ _ => .regex
  | .regexFold _ _ => .regexFold
  | .like _ _ => .like
  | .likeFold _ _ => .likeFold
  | .compare relation _ => .compare relation
  | .reference _ _ => .reference
  | .subquery _ _ => .subquery

def Clause.belongs (clause : Clause) (family : Family) (negated : Bool) : Bool :=
  clause.condition.family = family ∧ clause.negated = negated

namespace Signed

variable {α : Type}

def side (lists : Signed α) (negated : Bool) : List α :=
  if negated then lists.negative else lists.positive

theorem side_add (lists : Signed α) (added negated : Bool) (item : α) :
    (lists.add added item).side negated =
      lists.side negated ++ if added = negated then [item] else [] := by
  cases added <;> cases negated <;> simp [add, side]

theorem size_add (lists : Signed α) (negated : Bool) (item : α) :
    (lists.add negated item).size = lists.size + 1 := by
  cases negated <;> simp only [add, size, Bool.false_eq_true, ↓reduceIte, List.length_append,
    List.length_singleton] <;> omega

theorem ext_side {left right : Signed α}
    (same : ∀ negated, left.side negated = right.side negated) :
    left = right := by
  obtain ⟨positive, negative⟩ := left
  obtain ⟨otherPositive, otherNegative⟩ := right
  have positives := same false
  have negatives := same true
  simp only [side, Bool.false_eq_true, ↓reduceIte] at positives negatives
  rw [positives, negatives]

end Signed

namespace Clauses

def compared (clauses : Clauses) : Relation → Signed Comparison
  | .greater => clauses.greater
  | .greaterEq => clauses.greaterEq
  | .less => clauses.less
  | .lessEq => clauses.lessEq

end Clauses

namespace Selector

def listed (selector : Selector) (family : Family) (negated : Bool) : List Condition :=
  match family with
  | .guid => (selector.clauses.guid.side negated).map .guid
  | .tag => (selector.clauses.tag.side negated).map .tag
  | .truthy => (selector.clauses.truthy.side negated).map .truthy
  | .equal => (selector.clauses.equal.side negated).map (fun entry => .equal entry.1 entry.2)
  | .contain => (selector.clauses.contain.side negated).map (fun entry => .contain entry.1 entry.2)
  | .regex => (selector.clauses.regex.side negated).map (fun entry => .regex entry.1 entry.2)
  | .regexFold =>
    (selector.clauses.regexFold.side negated).map (fun entry => .regexFold entry.1 entry.2)
  | .like => (selector.clauses.like.side negated).map (fun entry => .like entry.1 entry.2)
  | .likeFold =>
    (selector.clauses.likeFold.side negated).map (fun entry => .likeFold entry.1 entry.2)
  | .compare relation =>
    ((selector.clauses.compared relation).side negated).map (.compare relation)
  | .reference =>
    (selector.clauses.reference.side negated).map (fun entry => .reference entry.1 entry.2)
  | .subquery => (selector.subqueries.side negated).map (fun entry => .subquery entry.1 entry.2)

theorem family_of_mem {selector : Selector} {family : Family} {negated : Bool}
    {condition : Condition} (member : condition ∈ selector.listed family negated) :
    condition.family = family := by
  cases family with
  | _ =>
    obtain ⟨entry, _, rfl⟩ := List.mem_map.mp member
    rfl

@[simp] theorem kind_add (selector : Selector) (clause : Clause) :
    (selector.add clause).kind = selector.kind := by
  obtain ⟨negated, condition⟩ := clause
  cases condition <;> rfl

@[simp] theorem nested_add (selector : Selector) (clause : Clause) :
    (selector.add clause).nested = selector.nested := by
  obtain ⟨negated, condition⟩ := clause
  cases condition <;> rfl

@[simp] theorem defined_add (selector : Selector) (clause : Clause) :
    (selector.add clause).clauses.defined = selector.clauses.defined := by
  obtain ⟨negated, condition⟩ := clause
  cases condition with
  | compare relation comparison => cases relation <;> rfl
  | _ => rfl

theorem clauseCount_add (selector : Selector) (clause : Clause) :
    (selector.add clause).clauseCount = selector.clauseCount + 1 := by
  obtain ⟨negated, condition⟩ := clause
  cases condition with
  | compare relation comparison =>
    cases relation <;> simp only [add, Clauses.add, clauseCount, Clauses.count, Signed.size_add]
    all_goals omega
  | _ =>
    simp only [add, Clauses.add, clauseCount, Clauses.count, Signed.size_add]
    omega

/-- A clause leaves the lists of other kinds as they are. -/
theorem listed_add_other (selector : Selector) (clause : Clause) (family : Family) (negated : Bool)
    (other : clause.condition.family ≠ family) :
    (selector.add clause).listed family negated = selector.listed family negated := by
  obtain ⟨added, condition⟩ := clause
  cases condition with
  | compare relation comparison =>
    cases relation <;> cases family with
    | compare different => cases different <;> first | rfl | exact absurd rfl other
    | _ => rfl
  | _ =>
    cases family with
    | compare relation => cases relation <;> rfl
    | _ => first | rfl | exact absurd rfl other

/-- A clause goes to the end of the list of its kind and sign. -/
theorem listed_add_own (selector : Selector) (clause : Clause) (negated : Bool) :
    (selector.add clause).listed clause.condition.family negated =
      selector.listed clause.condition.family negated ++
        if clause.negated = negated then [clause.condition] else [] := by
  obtain ⟨added, condition⟩ := clause
  cases condition with
  | compare relation comparison =>
    cases relation <;>
      simp only [Condition.family, add, Clauses.add, listed, Clauses.compared, Signed.side_add,
        List.map_append, apply_ite (List.map _), List.map_cons, List.map_nil]
  | _ =>
    simp only [Condition.family, add, Clauses.add, listed, Signed.side_add, List.map_append,
      apply_ite (List.map _), List.map_cons, List.map_nil]

theorem listed_add (selector : Selector) (clause : Clause) (family : Family) (negated : Bool) :
    (selector.add clause).listed family negated =
      selector.listed family negated ++
        if clause.belongs family negated then [clause.condition] else [] := by
  by_cases same : clause.condition.family = family
  · rw [← same, listed_add_own]
    simp only [Clause.belongs, true_and, decide_eq_true_eq]
  · rw [listed_add_other selector clause family negated same]
    simp only [Clause.belongs, same, false_and, decide_false, Bool.false_eq_true, ↓reduceIte,
      List.append_nil]

theorem nest_nil (selector : Selector) : selector.nest [] = selector := by
  obtain ⟨kind, clauses, subqueries, ⟨positive, negative⟩⟩ := selector
  simp only [nest, List.append_nil]

@[simp] theorem addAll_nil (selector : Selector) : selector.addAll [] = selector := rfl

@[simp] theorem addAll_cons (selector : Selector) (clause : Clause) (clauses : List Clause) :
    selector.addAll (clause :: clauses) = (selector.add clause).addAll clauses := rfl

theorem addAll_append (selector : Selector) (first second : List Clause) :
    selector.addAll (first ++ second) = (selector.addAll first).addAll second :=
  List.foldl_append

@[simp] theorem kind_addAll (selector : Selector) (clauses : List Clause) :
    (selector.addAll clauses).kind = selector.kind := by
  induction clauses generalizing selector with
  | nil => rfl
  | cons clause clauses ih => rw [addAll_cons, ih, kind_add]

@[simp] theorem nested_addAll (selector : Selector) (clauses : List Clause) :
    (selector.addAll clauses).nested = selector.nested := by
  induction clauses generalizing selector with
  | nil => rfl
  | cons clause clauses ih => rw [addAll_cons, ih, nested_add]

@[simp] theorem defined_addAll (selector : Selector) (clauses : List Clause) :
    (selector.addAll clauses).clauses.defined = selector.clauses.defined := by
  induction clauses generalizing selector with
  | nil => rfl
  | cons clause clauses ih => rw [addAll_cons, ih, defined_add]

theorem clauseCount_addAll (selector : Selector) (clauses : List Clause) :
    (selector.addAll clauses).clauseCount = selector.clauseCount + clauses.length := by
  induction clauses generalizing selector with
  | nil => rfl
  | cons clause clauses ih =>
    rw [addAll_cons, ih, clauseCount_add, List.length_cons]
    omega

theorem isEmpty_addAll (kind : Combinator) (clauses : List Clause) :
    (({ kind := kind } : Selector).addAll clauses).isEmpty = clauses.isEmpty := by
  have count := clauseCount_addAll { kind := kind } clauses
  have none : ({ kind := kind } : Selector).clauseCount = 0 := rfl
  rw [isEmpty, count, none, Nat.zero_add]
  cases clauses <;> rfl

/-- A node with no node under it stands for itself. -/
theorem simplify_of_childless {selector : Selector} (childless : selector.nested.positive = []) :
    selector.simplify = selector := by
  rw [simplify, childless]

/-- The clauses of some kind and sign go to the end of their list in their order. -/
theorem listed_addAll (selector : Selector) (clauses : List Clause) (family : Family)
    (negated : Bool) :
    (selector.addAll clauses).listed family negated =
      selector.listed family negated ++
        (clauses.filter (·.belongs family negated)).map Clause.condition := by
  induction clauses generalizing selector with
  | nil => rw [addAll_nil, List.filter_nil, List.map_nil, List.append_nil]
  | cons clause clauses ih =>
    rw [addAll_cons, ih, listed_add, List.append_assoc, List.filter_cons]
    split <;> rfl

theorem listed_nest (kind : Combinator) (children : List Selector) (family : Family)
    (negated : Bool) :
    (({ kind := kind } : Selector).nest children).listed family negated = [] := by
  cases negated <;> cases family with
  | compare relation => cases relation <;> rfl
  | _ => rfl

private theorem signed_of_listed {α : Type} {view : α → Condition}
    (injective : ∀ first second, view first = view second → first = second)
    {left right : Signed α}
    (same : ∀ negated, (left.side negated).map view = (right.side negated).map view) :
    left = right :=
  Signed.ext_side (fun negated => (List.map_inj_right injective).mp (same negated))

private theorem pair_injective {α : Type} {condition : String → α → Condition}
    (injective : ∀ a b c d, condition a b = condition c d → a = c ∧ b = d)
    (first second : String × α) (same : condition first.1 first.2 = condition second.1 second.2) :
    first = second :=
  Prod.ext_iff.mpr (injective first.1 first.2 second.1 second.2 same)

/-- A selector is known by its kind, its lists, its defined fields and the nodes under it. -/
theorem ext_listed {left right : Selector} (kind : left.kind = right.kind)
    (nested : left.nested = right.nested) (defined : left.clauses.defined = right.clauses.defined)
    (lists : ∀ family negated, left.listed family negated = right.listed family negated) :
    left = right := by
  obtain ⟨leftKind, leftClauses, leftSubqueries, leftNested⟩ := left
  obtain ⟨rightKind, rightClauses, rightSubqueries, rightNested⟩ := right
  have subqueries : leftSubqueries = rightSubqueries :=
    signed_of_listed (pair_injective (fun _ _ _ _ => Condition.subquery.inj)) (lists .subquery)
  have clauses : leftClauses = rightClauses := by
    rw [Clauses.mk.injEq]
    refine ⟨?_, ?_, defined, ?_, ?_, ?_, ?_, ?_, ?_, ?_, ?_, ?_, ?_, ?_, ?_⟩
    · exact signed_of_listed (fun _ _ => Condition.guid.inj) (lists .guid)
    · exact signed_of_listed (fun _ _ => Condition.tag.inj) (lists .tag)
    · exact signed_of_listed (fun _ _ => Condition.truthy.inj) (lists .truthy)
    · exact signed_of_listed (pair_injective (fun _ _ _ _ => Condition.equal.inj)) (lists .equal)
    · exact signed_of_listed (pair_injective (fun _ _ _ _ => Condition.contain.inj))
        (lists .contain)
    · exact signed_of_listed (pair_injective (fun _ _ _ _ => Condition.regex.inj)) (lists .regex)
    · exact signed_of_listed (pair_injective (fun _ _ _ _ => Condition.regexFold.inj))
        (lists .regexFold)
    · exact signed_of_listed (pair_injective (fun _ _ _ _ => Condition.like.inj)) (lists .like)
    · exact signed_of_listed (pair_injective (fun _ _ _ _ => Condition.likeFold.inj))
        (lists .likeFold)
    · exact signed_of_listed (fun _ _ same => (Condition.compare.inj same).2)
        (lists (.compare .greater))
    · exact signed_of_listed (fun _ _ same => (Condition.compare.inj same).2)
        (lists (.compare .greaterEq))
    · exact signed_of_listed (fun _ _ same => (Condition.compare.inj same).2)
        (lists (.compare .less))
    · exact signed_of_listed (fun _ _ same => (Condition.compare.inj same).2)
        (lists (.compare .lessEq))
    · exact signed_of_listed (pair_injective (fun _ _ _ _ => Condition.reference.inj))
        (lists .reference)
  rw [Selector.mk.injEq]
  exact ⟨kind, clauses, subqueries, nested⟩

end Selector

end SelectorLang
