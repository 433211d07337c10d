import SelectorLang.Proofs.Assembly
import SelectorLang.Proofs.Transport
import SelectorLang.Selector.Equality

set_option autoImplicit false

namespace SelectorLang

def Condition.Ordered : Condition → Prop
  | .equal _ value => value.Ordered
  | .contain _ value => value.Ordered
  | .subquery _ query => query.Ordered
  | _ => True

namespace Clause

open Reader

def OrderedAnswer (answer : Option Clause) : Prop := ∀ clause ∈ answer, clause.condition.Ordered

theorem ordered_valueOf (text : List Char) : (valueOf text).Ordered := by
  rw [valueOf]
  cases found : Json.ofText? text with
  | none => trivial
  | some value =>
    obtain ⟨term, _, read⟩ := Option.bind_eq_some_iff.mp found
    exact Json.ordered_of_toJson? Json.maxNesting term read

theorem takes_ordered {clause : Clause} (ordered : clause.condition.Ordered) :
    Takes (pure (some clause) : Reader (Option Clause)) (fun _ => OrderedAnswer) :=
  (takes_pure (some clause)).mono (by
    rintro _ _ ⟨_, rfl⟩ other member
    cases member
    exact ordered)

/-- Only equality, containment and subqueries hold values. -/
theorem ordered_of_says {stage : String} {reader : Reader (Option Clause)}
    (spoken : Takes reader (fun _ => Says stage)) (other : stage ∉ ["qref", "equal", "contain"]) :
    Takes reader (fun _ => OrderedAnswer) := by
  refine spoken.mono ?_
  rintro _ _ ⟨⟨negated, condition⟩, rfl, own⟩ said member
  cases member
  subst own
  cases condition with
  | equal => exact absurd (List.mem_cons_of_mem _ List.mem_cons_self) other
  | contain =>
    exact absurd (List.mem_cons_of_mem _ (List.mem_cons_of_mem _ List.mem_cons_self)) other
  | subquery => exact absurd List.mem_cons_self other
  | _ => trivial

theorem equal_ordered : Takes equal (fun _ => OrderedAnswer) := by
  have value : Takes ((do pure (Json.string (unquoted (← quoted)))) <|>
      (do pure (valueOf (← plainOperand (fun _ => true))))) (fun _ value => value.Ordered) :=
    .orElse
      (takes_quoted.answer (fun _ => (takes_pure _).mono (fun _ _ found => found.2 ▸ trivial)))
      ((takes_plainOperand _).answer
        (fun text => (takes_pure _).mono (fun _ _ found => found.2 ▸ ordered_valueOf text)))
  exact takes_target.answer (fun _ => (takes_exactly _).answer
    (fun _ => value.answer_of (fun _ known => takes_ordered known)))

theorem contain_ordered : Takes contain (fun _ => OrderedAnswer) :=
  takes_target.answer (fun _ => (takes_exactly _).answer (fun _ => (takes_escapedRun1 _).answer
    (fun _ => (takes_exactly _).answer (fun _ => takes_ordered (ordered_valueOf _)))))

theorem subquery_ordered {embed : List Char → List Char → Option Query}
    (sound : ∀ className text query, embed className text = some query → query.Ordered) :
    Takes (subquery embed) (fun _ => OrderedAnswer) := by
  refine (takes_subquery embed).mono ?_
  rintro _ _ ⟨field, negated, body, _, _, _, _, rfl⟩ clause member
  obtain ⟨query, made, rfl⟩ := Option.map_eq_some_iff.mp member
  exact sound _ _ query made

theorem absolute_ordered (relation : Relation) :
    Takes (absolute relation) (fun _ => OrderedAnswer) := by
  refine (takes_absolute relation).mono ?_
  rintro _ _ ⟨field, negated, numeral, _, _, rfl⟩ clause member
  obtain ⟨number, _, rfl⟩ := Option.map_eq_some_iff.mp member
  trivial

end Clause

/-- What any pass over a text says holds values in order, if the queries of references do. -/
theorem Stage.placed_ordered {embed : List Char → List Char → Option Query}
    (sound : ∀ className text query, embed className text = some query → query.Ordered) :
    ∀ pass ∈ placed (all embed), pass.reader.Takes (fun _ => Clause.OrderedAnswer) :=
  forall_placed (Clause.subquery_ordered sound) Clause.equal_ordered
    (Clause.ordered_of_says Clause.takes_reference (by decide)) Clause.contain_ordered
    (Clause.ordered_of_says Clause.takes_regex (by decide))
    (Clause.ordered_of_says Clause.takes_like (by decide))
    (Clause.ordered_of_says Clause.takes_guid (by decide))
    (Clause.ordered_of_says Clause.takes_truthy (by decide))
    (Clause.ordered_of_says Clause.takes_tag (by decide)) Clause.absolute_ordered
    (fun relation => Clause.ordered_of_says (Clause.takes_relative relation)
      (by cases relation <;> decide))

def BareHandler.Ordered (handler : BareHandler) : Prop :=
  ∀ text cls fields selector, handler text cls fields = some selector → selector.Ordered

namespace Compiler

variable {compiler : Compiler}

/-- A node is in order if the conditions it lists and the selectors below it are. -/
theorem ordered_of_listed {selector : Selector}
    (own : ∀ family negated, ∀ condition ∈ selector.listed family negated, condition.Ordered)
    (children : ∀ child, selector.Child child → child.Ordered) : selector.Ordered := by
  refine .mk selector (fun negated => ⟨?_, ?_⟩) ?_ ?_
  · intro entry member
    exact own .equal negated (.equal entry.1 entry.2) (List.mem_map.mpr ⟨entry, member, rfl⟩)
  · intro entry member
    exact own .contain negated (.contain entry.1 entry.2) (List.mem_map.mpr ⟨entry, member, rfl⟩)
  · intro negated entry member
    exact .mk entry.2 (fun child listed => children child (.queried negated entry member listed))
  · intro negated child member
    exact children child (.nested negated member)

theorem keeps_ordered (handler : compiler.bareHandler.Ordered) :
    compiler.Keeps (fun _ => Selector.Ordered) := by
  constructor
  · intro _ text cls fields selector answer
    exact handler text cls fields selector answer
  · intro _ inner selector yields filled children
    apply ordered_of_listed _ children
    intro family negated condition member
    apply (filled.said family negated condition member).of_answers
    exact Stage.placed_ordered (fun _ _ query embedded => .mk query (yields.embed embedded).2)
  · intro _ selector ordered
    exact ordered

/-- The values in a compiled query are in order. -/
theorem ordered_compile (handler : compiler.bareHandler.Ordered) (text : String)
    (cls : EntityClass) : (compiler.compile text cls).Ordered :=
  .mk _ ((keeps_ordered handler).compile text cls)

/-- A compiled query comes back from transport as it was if and only if its form nests no deeper
than a reader of JSON allows, and is refused otherwise. -/
theorem transport_compile (compiler : Compiler) (handler : compiler.bareHandler.Ordered)
    (text : String) (cls : EntityClass)
    (reads : ∀ double, Number.double double ∈ (compiler.compile text cls).toJson.numbers →
      (Number.double double).ReadsBack) :
    Query.ofText (Json.compact (compiler.compile text cls).toJson) =
      if (compiler.compile text cls).toJson.nesting ≤ 127 then .ok (compiler.compile text cls)
      else .error .malformedTransport :=
  Query.ofText_compact _ (ordered_compile handler text cls) (Number.readsBack_of_doubles reads)

end Compiler

theorem BareText.search_ordered : BareText.search.Ordered := by
  intro text cls fields selector answer
  rw [search] at answer
  split at answer
  · cases answer
  · cases answer
    exact Selector.ordered_of_empty rfl rfl rfl rfl

def Json.tower : Nat → Json
  | 0 => .array []
  | depth + 1 => .array [tower depth]

/-- A clause whose operand is 124 arrays, one in the other. -/
def Compiler.deepText : List Char :=
  'a' :: '=' :: (List.replicate 124 '[' ++ List.replicate 124 ']')

def Compiler.deepQuery : Query :=
  ⟨{ className := "User" },
    [{ kind := .allOf, clauses := { equal := ⟨[("a", Json.tower 123)], []⟩ } }]⟩

/-- The form of a clause adds four levels to its operand, so of the operands that can be compiled
some cannot be transported. -/
theorem Compiler.transport_compile_deep :
    BareText.search.Ordered ∧
      ({} : Compiler).compile (String.ofList deepText) ⟨"User", []⟩ = deepQuery ∧
      deepQuery.toJson.numbers = [] ∧ deepQuery.toJson.nesting = 128 ∧
      Query.ofText
          (Json.compact (({} : Compiler).compile (String.ofList deepText) ⟨"User", []⟩).toJson) =
        .error .malformedTransport := by
  have read : ({} : Compiler).queryAt Selector.simplify 32 ⟨"User", []⟩ deepText = deepQuery := by
    decide +kernel
  have made : ({} : Compiler).compile (String.ofList deepText) ⟨"User", []⟩ = deepQuery := by
    rw [compile, String.toList_ofList]
    exact read
  have numbers : deepQuery.toJson.numbers = [] := by decide +kernel
  have nesting : deepQuery.toJson.nesting = 128 := by decide +kernel
  refine ⟨BareText.search_ordered, made, numbers, nesting, ?_⟩
  rw [transport_compile {} BareText.search_ordered (String.ofList deepText) ⟨"User", []⟩, made,
    nesting]
  · rfl
  · rw [made, numbers]
    exact fun _ member => absurd member List.not_mem_nil

end SelectorLang
