import SelectorLang.Proofs.Assembly
import SelectorLang.Selector.Equality

set_option autoImplicit false

namespace SelectorLang

def BareHandler.Flat (handler : BareHandler) : Prop :=
  ∀ text cls fields selector, handler text cls fields = some selector →
    selector.nested = {} ∧ selector.subqueries = {}

def BareHandler.Answers (handler : BareHandler) (selector : Selector) : Prop :=
  ∃ text cls fields, handler text cls fields = some selector

namespace Selector

/-- The paths down from the selector have at most so many steps, and those of so many end in an
answer of the handler. -/
def Within (handler : BareHandler) (level : Nat) (selector : Selector) : Prop :=
  ∀ steps target, selector.Reaches steps target →
    steps ≤ level ∧ (steps = level → handler.Answers target)

theorem Within.deeper {handler : BareHandler} {level : Nat} {selector : Selector}
    (within : selector.Within handler level) : selector.Within handler (level + 1) := by
  intro steps target path
  have bound := (within steps target path).1
  refine ⟨by omega, ?_⟩
  intro last
  omega

theorem within_of_children {handler : BareHandler} {level : Nat} {selector : Selector}
    (children : ∀ child, selector.Child child → child.Within handler level) :
    selector.Within handler (level + 1) := by
  intro steps target path
  cases path with
  | here => exact ⟨Nat.zero_le _, nofun⟩
  | step below path =>
    obtain ⟨bound, last⟩ := children _ below _ target path
    refine ⟨by omega, ?_⟩
    intro same
    exact last (by omega)

theorem childless {selector : Selector} (nested : selector.nested = {})
    (subqueries : selector.subqueries = {}) (child : Selector) : ¬selector.Child child := by
  intro below
  cases below with
  | nested negated member =>
    rw [nested] at member
    cases negated <;> cases member
  | queried negated entry member =>
    rw [subqueries] at member
    cases negated <;> cases member

end Selector

namespace Compiler

variable {compiler : Compiler}

/-- An answer of a flat handler ends every path that comes to it. -/
theorem within_of_answer (flat : compiler.bareHandler.Flat) (level : Nat) {selector : Selector}
    (answer : compiler.bareHandler.Answers selector) :
    selector.Within compiler.bareHandler level := by
  intro steps target path
  cases path with
  | here => exact ⟨Nat.zero_le level, fun _ => answer⟩
  | step below path =>
    obtain ⟨text, cls, fields, made⟩ := answer
    obtain ⟨nested, subqueries⟩ := flat text cls fields selector made
    exact absurd below (Selector.childless nested subqueries _)

/-- Compiling goes down one step for each level. -/
theorem keeps_within (flat : compiler.bareHandler.Flat) :
    compiler.Keeps (Selector.Within compiler.bareHandler) := by
  constructor
  · intro level text cls fields selector answer
    exact within_of_answer flat level ⟨text, cls, fields, answer⟩
  · intro level inner selector _ _ children
    exact Selector.within_of_children children
  · intro level selector within
    exact within.deeper

theorem embed_nothing (compiler : Compiler) :
    compiler.embed Inner.nothing = fun _ _ => none := by
  funext className text
  rw [embed]
  cases compiler.class? (String.ofList className) with
  | none => rfl
  | some target => rfl

/-- Below the last level there are no groups, and no references are embedded. -/
theorem fill_nothing (compiler : Compiler) (kind : Combinator) (groups : List Group)
    (text : List Char) :
    compiler.fill Inner.nothing kind groups text =
      Stage.runAll (Stage.all (fun _ _ => none)) text { kind := kind } := by
  have none : groups.filterMap Inner.nothing.group = [] :=
    List.filterMap_eq_nil_iff.mpr (fun _ _ => rfl)
  rw [fill, embed_nothing, none, Selector.nest_nil]

theorem subqueries_fill_nothing (compiler : Compiler) (kind : Combinator) (groups : List Group)
    (text : List Char) :
    (compiler.fill Inner.nothing kind groups text).2.subqueries = {} := by
  have filled := filled_fill compiler Inner.nothing kind groups text
  apply Signed.ext_side
  intro negated
  have absent : (compiler.fill Inner.nothing kind groups text).2.subqueries.side negated = [] := by
    rw [List.eq_nil_iff_forall_not_mem]
    intro entry member
    obtain ⟨className, body, embedded⟩ := embed_of_filled filled negated member
    rw [embed_nothing] at embedded
    cases embedded
  rw [absent]
  cases negated <;> rfl

/-- The selector of the clauses that a text has outside groups and references. -/
def plainSelector (cls : EntityClass) (text : List Char) : Selector :=
  (Stage.runAll (Stage.all (fun _ _ => none))
    (Directive.extract (split text).remainder { className := cls.name }).1 { kind := .allOf }).2

/-- Without levels a text's plain clauses and its bare text are all that is compiled. -/
theorem selectors_of_nothing {cls : EntityClass} {text : List Char} {top : Selector}
    (member : top ∈ (compiler.queryWith Selector.simplify Inner.nothing cls text).selectors) :
    compiler.bareHandler.Answers top ∨
      top = plainSelector cls text ∧ top.nested = {} ∧ top.subqueries = {} := by
  have nested := nested_fill compiler Inner.nothing .allOf (split text).groups
    (Directive.extract (split text).remainder { className := cls.name }).1
  have subqueries := subqueries_fill_nothing compiler .allOf (split text).groups
    (Directive.extract (split text).remainder { className := cls.name }).1
  have plain : (compiler.fill Inner.nothing .allOf (split text).groups
      (Directive.extract (split text).remainder { className := cls.name }).1).2 =
        plainSelector cls text := by
    rw [fill_nothing, plainSelector]
  simp only [queryWith] at member
  generalize compiler.fill Inner.nothing .allOf (split text).groups
    (Directive.extract (split text).remainder { className := cls.name }).1 = result
    at nested subqueries plain member
  obtain ⟨rest, filled⟩ := result
  simp only at nested subqueries plain member
  have none : (split text).groups.filterMap Inner.nothing.group = [] :=
    List.filterMap_eq_nil_iff.mpr (fun _ _ => rfl)
  rw [none] at nested
  rcases List.mem_append.mp member with own | spoken
  · split at own
    · cases own
    · have unwrapped : filled.simplify = filled := by
        apply Selector.simplify_of_childless
        rw [nested]
      rw [List.mem_singleton.mp own, unwrapped]
      exact Or.inr ⟨plain, nested, subqueries⟩
  · obtain ⟨words, answer⟩ := answer_of_bareSelector (Option.mem_toList.mp spoken)
    exact Or.inl ⟨words, cls, _, answer⟩

end Compiler

theorem BareText.search_flat : BareText.search.Flat := by
  intro text cls fields selector answer
  rw [search] at answer
  split at answer
  · cases answer
  · cases answer
    exact ⟨rfl, rfl⟩

namespace Compiler

/-- A path down a compiled query has at most one step more than there are levels, and then ends in
bare text; without bare text it has no more steps than there are levels. Without levels nothing
stands below the plain clauses and the bare text. -/
theorem depth_of_compile (compiler : Compiler) (flat : compiler.bareHandler.Flat) (text : String)
    (cls : EntityClass) :
    (∀ top ∈ (compiler.compile text cls).selectors, ∀ steps target, top.Reaches steps target →
      steps ≤ compiler.maxDepth + 1 ∧
        (steps = compiler.maxDepth + 1 → compiler.bareHandler.Answers target)) ∧
    (compiler.bareHandler.Drops →
      ∀ top ∈ (compiler.compile text cls).selectors, ∀ steps target, top.Reaches steps target →
        steps ≤ compiler.maxDepth) ∧
    (compiler.maxDepth = 0 → ∀ top ∈ (compiler.compile text cls).selectors,
      top.nested = {} ∧ top.subqueries = {} ∧
        (compiler.bareHandler.Answers top ∨ top = plainSelector cls text.toList)) := by
  have within : ∀ top ∈ (compiler.compile text cls).selectors,
      top.Within compiler.bareHandler (compiler.maxDepth + 1) :=
    (keeps_within flat).compile text cls
  refine ⟨within, ?_, ?_⟩
  · intro drops top member steps target path
    obtain ⟨bound, last⟩ := within top member steps target path
    have short : steps ≠ compiler.maxDepth + 1 := by
      intro longest
      obtain ⟨_, _, _, answer⟩ := last longest
      rw [drops] at answer
      cases answer
    omega
  · intro zero top member
    rw [compile, queryAt, zero] at member
    rcases selectors_of_nothing member with answer | ⟨plain, nested, subqueries⟩
    · obtain ⟨words, target, fields, made⟩ := answer
      obtain ⟨nested, subqueries⟩ := flat words target fields top made
      exact ⟨nested, subqueries, Or.inl ⟨words, target, fields, made⟩⟩
    · exact ⟨nested, subqueries, Or.inr plain⟩

def wordSelector : Selector :=
  { kind := .anyOf
    clauses := { likeFold := ⟨standardFields.map (fun field => (field, "%word%")), []⟩ } }

def wordGroup : Selector :=
  { kind := .allOf, clauses := { tag := ⟨["b"], []⟩ }, nested := ⟨[wordSelector], []⟩ }

def wordTop : Selector :=
  { kind := .allOf, clauses := { tag := ⟨["a"], []⟩ }, nested := ⟨[wordGroup], []⟩ }

def wordText : List Char := "<a> (<b> word)".toList

/-- With one level bare text in a group stands two steps down. -/
theorem depth_of_compile_word :
    ({ maxDepth := 1 } : Compiler).bareHandler.Flat ∧
      wordTop ∈ (({ maxDepth := 1 } : Compiler).compile (String.ofList wordText)
        ⟨"User", []⟩).selectors ∧
      wordTop.Reaches 2 wordSelector ∧ BareText.search.Answers wordSelector := by
  have read : ({ maxDepth := 1 } : Compiler).queryAt Selector.simplify 1 ⟨"User", []⟩ wordText =
      ⟨{ className := "User" }, [wordTop]⟩ := by
    decide +kernel
  have member : wordTop ∈ (({ maxDepth := 1 } : Compiler).compile (String.ofList wordText)
      ⟨"User", []⟩).selectors := by
    have made : ({ maxDepth := 1 } : Compiler).compile (String.ofList wordText) ⟨"User", []⟩ =
        ⟨{ className := "User" }, [wordTop]⟩ := by
      rw [compile, String.toList_ofList]
      exact read
    rw [made]
    exact List.mem_singleton_self wordTop
  have path : wordTop.Reaches 2 wordSelector :=
    .step (.nested false (List.mem_singleton_self _))
      (.step (.nested false (List.mem_singleton_self _)) (.here _))
  have described := depth_of_compile { maxDepth := 1 } BareText.search_flat
    (String.ofList wordText) ⟨"User", []⟩
  exact ⟨BareText.search_flat, member, path, (described.1 wordTop member 2 wordSelector path).2 rfl⟩

end Compiler

end SelectorLang
