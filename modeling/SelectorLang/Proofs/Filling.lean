import SelectorLang.Compiler
import SelectorLang.Proofs.Passes

set_option autoImplicit false

namespace SelectorLang

def Stage.Says (embed : List Char → List Char → Option Query) (condition : Condition) : Prop :=
  ∃ text, ∃ clause ∈ (Pass.claimsAll (placed (all embed)) text).filterMap Claim.clause,
    clause.condition = condition

/-- What holds of the answers of every pass holds of every condition that a token may say. -/
theorem Stage.Says.of_answers {embed : List Char → List Char → Option Query}
    {holds : Condition → Prop} {condition : Condition} (said : Says embed condition)
    (answers : ∀ pass ∈ placed (all embed),
      pass.reader.Takes (fun _ answer => ∀ clause ∈ answer, holds clause.condition)) :
    holds condition := by
  obtain ⟨text, clause, member, rfl⟩ := said
  obtain ⟨claim, found, spoken⟩ := List.mem_filterMap.mp member
  obtain ⟨pass, listed, _, _, source, token⟩ := Pass.mem_claimsAll found
  exact (Token.token_scan (answers pass listed) token).1 clause spoken

/-- A node whose clauses were said by tokens. -/
structure Selector.Filled (embed : List Char → List Char → Option Query) (selector : Selector) :
    Prop where
  said : ∀ family negated, ∀ condition ∈ selector.listed family negated,
    Stage.Says embed condition
  defined : selector.clauses.defined = {}

theorem Selector.Filled.nest {embed : List Char → List Char → Option Query} {selector : Selector}
    (filled : selector.Filled embed) (children : List Selector) :
    (selector.nest children).Filled embed :=
  ⟨filled.said, filled.defined⟩

def Condition.Embedded (embed : List Char → List Char → Option Query) (condition : Condition) :
    Prop :=
  ∀ field query, condition = .subquery field query →
    ∃ className text, embed className text = some query

theorem Stage.takes_embedded (embed : List Char → List Char → Option Query) :
    ∀ pass ∈ placed (all embed), pass.reader.Takes (fun _ answer =>
      ∀ clause ∈ answer, clause.condition.Embedded embed) := by
  intro pass member
  cases reads_of_placed (fun _ listed => listed) member with
  | subquery =>
    refine (Clause.takes_subquery embed).mono ?_
    rintro _ _ ⟨_, _, body, _, _, _, _, rfl⟩ clause said field query same
    obtain ⟨embedded, made, rfl⟩ := Option.map_eq_some_iff.mp said
    cases same
    exact ⟨_, _, made⟩
  | number relation =>
    refine (Clause.takes_absolute relation).mono ?_
    rintro _ _ ⟨_, _, _, _, _, rfl⟩ clause said field query same
    obtain ⟨_, _, rfl⟩ := Option.map_eq_some_iff.mp said
    cases same
  | clause _ _ spoken other =>
    refine spoken.mono ?_
    rintro _ _ ⟨clause, rfl, own⟩ _ said field query same
    cases said
    rw [same] at own
    exact absurd own.symm other

namespace Compiler

variable {compiler : Compiler} {inner : Inner}

/-- A query is embedded by compiling it for a registered class one level deeper. -/
theorem query_of_embed {className text : List Char} {query : Query}
    (embedded : compiler.embed inner className text = some query) :
    ∃ target ∈ compiler.classes, inner.query target text = some query := by
  rw [embed, Option.bind_eq_some_iff] at embedded
  obtain ⟨target, registered, made⟩ := embedded
  exact ⟨target, List.mem_of_find?_eq_some registered, made⟩

/-- The queries in a filled node were embedded. -/
theorem embed_of_filled {selector : Selector} (filled : selector.Filled (compiler.embed inner))
    (negated : Bool) {entry : String × Query}
    (member : entry ∈ selector.subqueries.side negated) :
    ∃ className text, compiler.embed inner className text = some entry.2 := by
  have shown : Condition.subquery entry.1 entry.2 ∈ selector.listed .subquery negated :=
    List.mem_map.mpr ⟨entry, member, rfl⟩
  have embedded : (Condition.subquery entry.1 entry.2).Embedded (compiler.embed inner) :=
    (filled.said .subquery negated _ shown).of_answers (Stage.takes_embedded _)
  exact embedded entry.1 entry.2 rfl

theorem nested_fill (compiler : Compiler) (inner : Inner) (kind : Combinator) (groups : List Group)
    (text : List Char) :
    (compiler.fill inner kind groups text).2.nested = ⟨groups.filterMap inner.group, []⟩ := by
  rw [fill, Stage.runAll_eq, Selector.nested_addAll]
  rfl

/-- Filling a node gives it no clauses but those that tokens say. -/
theorem filled_fill (compiler : Compiler) (inner : Inner) (kind : Combinator) (groups : List Group)
    (text : List Char) :
    (compiler.fill inner kind groups text).2.Filled (compiler.embed inner) := by
  constructor
  · intro family negated condition member
    rw [fill, Stage.runAll_eq, Selector.listed_addAll, List.mem_append] at member
    rcases member with old | new
    · -- The node was made without clauses.
      cases family with
      | compare relation => cases relation <;> cases negated <;> cases old
      | _ => cases negated <;> cases old
    · obtain ⟨clause, found, same⟩ := List.mem_map.mp new
      exact ⟨text, clause, (List.mem_filter.mp found).1, same⟩
  · rw [fill, Stage.runAll_eq, Selector.defined_addAll]
    rfl

theorem answer_of_bareSelector {cls : EntityClass} {rest : List Char} {selector : Selector}
    (answer : compiler.bareSelector cls rest = some selector) :
    ∃ text, compiler.bareHandler text cls (compiler.searchFields cls) = some selector := by
  obtain ⟨text, _, answered⟩ := Option.bind_eq_some_iff.mp answer
  exact ⟨text, answered⟩

theorem bareSelector_of_words (compiler : Compiler) (cls : EntityClass) {rest : List Char}
    (blank : Text.words rest = []) : compiler.bareSelector cls rest = none := by
  rw [bareSelector, BareText.ofRest?, blank]
  rfl

/-- What comes of a text without groups and directives: the clauses that the stages find, and the
bare text that they leave. -/
theorem compile_undivided (compiler : Compiler) (cls : EntityClass) {text rest : List Char}
    (undivided : split text = ⟨[], text⟩)
    (free : Directive.extract text { className := cls.name } = (text, { className := cls.name }))
    {clauses : List Clause}
    (run : Stage.runAll (Stage.all (compiler.embed
        (compiler.innerAt Selector.simplify compiler.maxDepth cls))) text { kind := .allOf } =
      (rest, ({ kind := .allOf } : Selector).addAll clauses)) :
    compiler.compile (String.ofList text) cls =
      ⟨{ className := cls.name },
        (if (({ kind := .allOf } : Selector).addAll clauses).isEmpty &&
            (compiler.bareSelector cls rest).isSome then []
          else [({ kind := .allOf } : Selector).addAll clauses]) ++
          (compiler.bareSelector cls rest).toList⟩ := by
  have childless : (({ kind := .allOf } : Selector).addAll clauses).nested.positive = [] := by
    rw [Selector.nested_addAll]
  simp only [compile, queryAt, queryWith, String.toList_ofList, undivided, free, fill,
    List.filterMap_nil, Selector.nest_nil, run, Selector.simplify_of_childless childless]

end Compiler

end SelectorLang
