import SelectorLang.Proofs.NormalForm

set_option autoImplicit false

namespace SelectorLang

namespace Selector

/-- The selectors one step below a selector: nested ones, and those of the queries of its
references. -/
inductive Child (parent child : Selector) : Prop
  | nested (negated : Bool) (member : child ∈ parent.nested.side negated) : Child parent child
  | queried (negated : Bool) (entry : String × Query)
      (member : entry ∈ parent.subqueries.side negated) (listed : child ∈ entry.2.selectors) :
      Child parent child

/-- The selectors that a path of so many steps leads down to. -/
inductive Reaches : Selector → Nat → Selector → Prop
  | here (selector : Selector) : Reaches selector 0 selector
  | step {parent child target : Selector} {steps : Nat} (below : parent.Child child)
      (path : Reaches child steps target) : Reaches parent (steps + 1) target

end Selector

def BareHandler.Drops (handler : BareHandler) : Prop :=
  ∀ text cls fields, handler text cls fields = none

namespace Compiler

/-- Of everything that is compiled one level deeper the property holds. -/
structure Inner.Yields (inner : Inner) (holds : Selector → Prop) : Prop where
  group : ∀ group selector, inner.group group = some selector → holds selector
  query : ∀ target text query, inner.query target text = some query →
    query.options.className = target.name ∧ ∀ selector ∈ query.selectors, holds selector

/-- A property of the nodes of each level, counted from the last one, that compiling passes on. -/
structure Keeps (compiler : Compiler) (holds : Nat → Selector → Prop) : Prop where
  bare : ∀ level text cls fields selector,
    compiler.bareHandler text cls fields = some selector → holds level selector
  node : ∀ level inner selector, inner.Yields (holds level) →
    selector.Filled (compiler.embed inner) →
    (∀ child, selector.Child child → holds level child) → holds (level + 1) selector
  /-- Where a node stands for the node under it, that one comes up a level. -/
  deeper : ∀ level selector, holds level selector → holds (level + 1) selector

variable {compiler : Compiler} {holds : Nat → Selector → Prop}

theorem yields_nothing {property : Selector → Prop} : Inner.nothing.Yields property :=
  ⟨fun _ _ => nofun, fun _ _ _ => nofun⟩

/-- An embedded query is for a registered class, and what holds one level deeper holds in it. -/
theorem Inner.Yields.embed {inner : Inner} {property : Selector → Prop}
    (yields : inner.Yields property) {className text : List Char} {query : Query}
    (embedded : compiler.embed inner className text = some query) :
    (∃ target ∈ compiler.classes, query.options.className = target.name) ∧
      ∀ selector ∈ query.selectors, property selector := by
  obtain ⟨target, registered, made⟩ := query_of_embed embedded
  obtain ⟨own, selectors⟩ := yields.query target text query made
  exact ⟨⟨target, registered, own⟩, selectors⟩

/-- What holds one level deeper holds of the nodes under a filled one. -/
theorem child_of_filled {inner : Inner} {property : Selector → Prop}
    (yields : inner.Yields property) {selector : Selector}
    (filled : selector.Filled (compiler.embed inner))
    (nested : ∀ negated, ∀ child ∈ selector.nested.side negated, property child) :
    ∀ child, selector.Child child → property child := by
  intro child below
  cases below with
  | nested negated member => exact nested negated child member
  | queried negated entry member listed =>
    obtain ⟨_, _, embedded⟩ := embed_of_filled filled negated member
    exact (yields.embed embedded).2 child listed

namespace Keeps

variable (keeps : compiler.Keeps holds) {level : Nat} {inner : Inner}

include keeps

theorem bareSelector (cls : EntityClass) (rest : List Char) :
    ∀ selector ∈ (compiler.bareSelector cls rest).toList, holds level selector := by
  intro selector member
  obtain ⟨text, answer⟩ := answer_of_bareSelector (Option.mem_toList.mp member)
  exact keeps.bare level text cls _ selector answer

/-- A filled node over compiled ones keeps the property when it is simplified. -/
theorem simplified (yields : inner.Yields (holds level)) {selector : Selector}
    (filled : selector.Filled (compiler.embed inner)) (negative : selector.nested.negative = [])
    (positive : ∀ child ∈ selector.nested.positive, holds level child) :
    holds (level + 1) selector.simplify := by
  have children := child_of_filled yields filled (by
    intro negated child member
    cases negated with
    | false => exact positive child member
    | true =>
      rw [Signed.side, if_pos rfl, negative] at member
      cases member)
  by_cases single : ∃ child, selector.Wraps child
  · obtain ⟨child, wraps⟩ := single
    rw [Selector.simplify_of_wraps wraps]
    apply keeps.deeper level child
    apply positive child
    rw [wraps.1]
    exact List.mem_singleton_self child
  · rw [Selector.simplify_of_not_wraps (fun child wraps => single ⟨child, wraps⟩)]
    exact keeps.node level inner selector yields filled children

theorem groupWith (yields : inner.Yields (holds level)) (cls : EntityClass) (group : Group)
    {selector : Selector}
    (made : compiler.groupWith Selector.simplify inner cls group = some selector) :
    holds (level + 1) selector := by
  have filled := filled_fill compiler inner group.kind (split group.body).groups
    (split group.body).remainder
  have nested := nested_fill compiler inner group.kind (split group.body).groups
    (split group.body).remainder
  simp only [Compiler.groupWith] at made
  generalize compiler.fill inner group.kind (split group.body).groups
    (split group.body).remainder = result at made filled nested
  obtain ⟨rest, selected⟩ := result
  simp only at made filled nested
  split at made
  · cases made
  · cases made
    refine keeps.simplified yields (filled.nest _) ?_ ?_
    · simp only [Selector.nest, nested]
    · intro child member
      simp only [Selector.nest, nested, List.mem_append, List.mem_filterMap] at member
      rcases member with ⟨other, _, answer⟩ | spoken
      · exact yields.group other child answer
      · exact keeps.bareSelector cls rest child spoken

theorem queryWith (yields : inner.Yields (holds level)) (cls : EntityClass) (text : List Char) :
    ∀ selector ∈ (compiler.queryWith Selector.simplify inner cls text).selectors,
      holds (level + 1) selector := by
  have filled := filled_fill compiler inner .allOf (split text).groups
    (Directive.extract (split text).remainder { className := cls.name }).1
  have nested := nested_fill compiler inner .allOf (split text).groups
    (Directive.extract (split text).remainder { className := cls.name }).1
  simp only [Compiler.queryWith]
  generalize compiler.fill inner .allOf (split text).groups
    (Directive.extract (split text).remainder { className := cls.name }).1 = result
    at filled nested ⊢
  obtain ⟨rest, selected⟩ := result
  simp only at filled nested
  intro selector member
  rcases List.mem_append.mp member with own | spoken
  · split at own
    · cases own
    · rw [List.mem_singleton.mp own]
      refine keeps.simplified yields filled ?_ ?_
      · rw [nested]
      · intro child member
        rw [nested] at member
        obtain ⟨group, _, answer⟩ := List.mem_filterMap.mp member
        exact yields.group group child answer
  · exact keeps.bareSelector cls rest selector spoken

theorem innerAt (depth : Nat) (cls : EntityClass) :
    (compiler.innerAt Selector.simplify depth cls).Yields (holds depth) := by
  induction depth generalizing cls with
  | zero => exact yields_nothing
  | succ below ih =>
    constructor
    · intro group selector made
      simp only [Compiler.innerAt] at made
      exact keeps.groupWith (ih cls) cls group made
    · intro target text query made
      simp only [Compiler.innerAt, Option.some.injEq] at made
      rw [← made]
      exact ⟨rfl, keeps.queryWith (ih target) target text⟩

/-- What compiling passes on holds of the selectors of a compiled query. -/
theorem compile (text : String) (cls : EntityClass) :
    ∀ selector ∈ (compiler.compile text cls).selectors, holds (compiler.maxDepth + 1) selector :=
  keeps.queryWith (keeps.innerAt compiler.maxDepth cls) cls text.toList

end Keeps

end Compiler

end SelectorLang
