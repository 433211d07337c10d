import SelectorLang.Proofs.Assembly
import SelectorLang.Selector.Equality

set_option autoImplicit false

namespace SelectorLang

/-- A field's name: word characters, `$`, `.` and `-`. -/
def IsFieldName (name : String) : Prop :=
  name.toList ≠ [] ∧ ∀ c ∈ name.toList, isWordChar c = true ∨ c = '$' ∨ c = '.' ∨ c = '-'

/-- An entity's identifier: 24 hexadecimal digits. -/
def IsIdentifier (text : String) : Prop :=
  text.toList.length = 24 ∧
    ∀ c ∈ text.toList, c.isDigit = true ∨ ('a' ≤ c ∧ c ≤ 'f') ∨ ('A' ≤ c ∧ c ≤ 'F')

/-- A tag's name: no blanks and no angle brackets, and no mark of negation in front. -/
def IsTag (name : String) : Prop :=
  name.toList ≠ [] ∧ name.toList.head? ≠ some '!' ∧
    ∀ c ∈ name.toList, isBlank c = false ∧ c ≠ '<' ∧ c ≠ '>'

def Comparison.WellFormed : Comparison → Prop
  | .absolute field _ => IsFieldName field
  | .relative field expression => IsFieldName field ∧ expression.toList ≠ []

/-- The operands of the condition are what they have to be; a query in it is for one of the
classes. -/
def Condition.WellFormed (classes : List EntityClass) : Condition → Prop
  | .guid identifier => IsIdentifier identifier
  | .tag name => IsTag name
  | .truthy field => IsFieldName field
  | .equal field _ => IsFieldName field
  | .contain field _ => IsFieldName field
  | .regex field pattern => IsFieldName field ∧ pattern.toList ≠ []
  | .regexFold field pattern => IsFieldName field ∧ pattern.toList ≠ []
  | .like field _ => IsFieldName field
  | .likeFold field _ => IsFieldName field
  | .compare _ comparison => comparison.WellFormed
  | .reference field identifier => IsFieldName field ∧ IsIdentifier identifier
  | .subquery field query =>
    IsFieldName field ∧ ∃ target ∈ classes, query.options.className = target.name

/-- All clauses of the selector itself have the operands they have to have. -/
structure Selector.WellFormed (classes : List EntityClass) (selector : Selector) : Prop where
  listed : ∀ family negated, ∀ condition ∈ selector.listed family negated,
    condition.WellFormed classes
  defined : ∀ negated, ∀ field ∈ selector.clauses.defined.side negated, IsFieldName field

theorem isFieldName_ofList {name : List Char} (nonempty : name ≠ [])
    (accepted : name.all isFieldChar = true) : IsFieldName (String.ofList name) := by
  rw [IsFieldName, String.toList_ofList]
  refine ⟨nonempty, ?_⟩
  intro c member
  have own := List.all_eq_true.mp accepted c member
  simpa only [isFieldChar, Bool.or_eq_true, beq_iff_eq, or_assoc] using own

theorem FieldName.isFieldName (field : FieldName) : IsFieldName (String.ofList field.chars) :=
  isFieldName_ofList field.nonempty field.wellFormed

theorem isIdentifier_ofList {digits : List Char} (identifier : Clause.isIdentifier digits = true) :
    IsIdentifier (String.ofList digits) := by
  rw [Clause.isIdentifier, Bool.and_eq_true, beq_iff_eq] at identifier
  rw [IsIdentifier, String.toList_ofList]
  refine ⟨identifier.1, ?_⟩
  intro c member
  have own := List.all_eq_true.mp identifier.2 c member
  simpa only [isHexDigit, Bool.or_eq_true, Bool.and_eq_true, decide_eq_true_eq, or_assoc] using own

namespace Clause

open Reader

theorem unslashed_ne_nil {body : List Char} (nonempty : body ≠ []) : unslashed body ≠ [] := by
  fun_cases unslashed body with
  | case1 => exact List.cons_ne_nil _ _
  | case2 => exact List.cons_ne_nil _ _
  | case3 => exact absurd rfl nonempty

theorem field_of_target : Takes target (fun _ subject => IsFieldName subject.1) := by
  refine takes_target.mono ?_
  rintro _ _ ⟨field, _, same⟩
  rw [same]
  exact field.isFieldName

theorem plainOperand_nonempty (starts : Char → Bool) :
    Takes (plainOperand starts) (fun _ operand => operand ≠ []) := by
  refine (takes_satisfy _).answer (fun first => (takes_run _).answer (fun others => ?_))
  refine (takes_pure (first :: others)).mono ?_
  rintro _ _ ⟨_, rfl⟩
  exact List.cons_ne_nil first others

section

variable {classes : List EntityClass}

def WellFormedAnswer (classes : List EntityClass) (answer : Option Clause) : Prop :=
  ∀ clause ∈ answer, clause.condition.WellFormed classes

theorem wellFormedAnswer_some {clause : Clause} (wellFormed : clause.condition.WellFormed classes) :
    WellFormedAnswer classes (some clause) := by
  intro other member
  cases member
  exact wellFormed

theorem takes_wellFormed {clause : Clause} (wellFormed : clause.condition.WellFormed classes) :
    Takes (pure (some clause) : Reader (Option Clause)) (fun _ => WellFormedAnswer classes) :=
  (takes_pure (some clause)).mono (by
    rintro _ _ ⟨_, rfl⟩
    exact wellFormedAnswer_some wellFormed)

theorem equal_wellFormed : Takes equal (fun _ => WellFormedAnswer classes) := by
  have value : TakesFront ((do pure (Json.string (unquoted (← quoted)))) <|>
      (do pure (valueOf (← plainOperand (fun _ => true))))) :=
    .orElse (takes_quoted.answer (fun _ => (takes_pure _).front))
      ((takes_plainOperand _).answer (fun _ => (takes_pure _).front))
  exact field_of_target.answer_of (fun _ field => (takes_exactly _).answer
    (fun _ => value.answer (fun _ => takes_wellFormed field)))

theorem reference_wellFormed : Takes reference (fun _ => WellFormedAnswer classes) := by
  refine takes_referenceText.mono ?_
  rintro _ _ ⟨field, negated, digits, _, known, rfl⟩
  exact wellFormedAnswer_some ⟨field.isFieldName, isIdentifier_ofList known⟩

theorem contain_wellFormed : Takes contain (fun _ => WellFormedAnswer classes) :=
  field_of_target.answer_of (fun _ field => (takes_exactly _).answer
    (fun _ => (takes_escapedRun1 _).answer (fun _ => (takes_exactly _).answer
      (fun _ => takes_wellFormed field))))

theorem regex_wellFormed : Takes regex (fun _ => WellFormedAnswer classes) := by
  have body : Takes slashed (fun _ body => body ≠ []) :=
    takes_slashed.mono (fun _ _ facts => facts.2.1)
  refine field_of_target.answer_of (fun subject field => (takes_exactly _).answer
    (fun _ => body.answer_of (fun body nonempty => (takes_flag 'i').answer (fun folds => ?_))))
  have pattern : (String.ofList (unslashed body)).toList ≠ [] := by
    rw [String.toList_ofList]
    exact unslashed_ne_nil nonempty
  cases folds with
  | false => exact takes_wellFormed ⟨field, pattern⟩
  | true => exact takes_wellFormed ⟨field, pattern⟩

theorem like_wellFormed : Takes like (fun _ => WellFormedAnswer classes) := by
  refine field_of_target.answer_of (fun subject field => (takes_exactly _).answer
    (fun _ => .orElse ?_ ?_))
  · refine takes_quoted.answer (fun body => (takes_flag 'i').answer (fun folds => ?_))
    cases folds with
    | false => exact takes_wellFormed field
    | true => exact takes_wellFormed field
  · exact (takes_plainOperand _).answer (fun _ => takes_wellFormed field)

theorem guid_wellFormed : Takes guid (fun _ => WellFormedAnswer classes) := by
  refine takes_guidText.mono ?_
  rintro _ _ ⟨negated, digits, _, known, rfl⟩
  exact wellFormedAnswer_some (isIdentifier_ofList known)

theorem truthy_wellFormed : Takes truthy (fun _ => WellFormedAnswer classes) := by
  refine takes_truthyText.mono ?_
  rintro _ _ ⟨negated, field, _, rfl⟩
  exact wellFormedAnswer_some field.isFieldName

theorem tag_wellFormed : Takes tag (fun _ => WellFormedAnswer classes) := by
  refine takes_tagText.mono ?_
  rintro _ _ ⟨negated, first, others, _, unmarked, inside, rfl⟩
  apply wellFormedAnswer_some
  show IsTag (String.ofList (first :: others))
  rw [IsTag, String.toList_ofList, List.head?_cons]
  exact ⟨List.cons_ne_nil first others, fun same => unmarked (Option.some.inj same), inside⟩

theorem absolute_wellFormed (relation : Relation) :
    Takes (absolute relation) (fun _ => WellFormedAnswer classes) := by
  refine (takes_absolute relation).mono ?_
  rintro _ _ ⟨field, negated, numeral, _, _, rfl⟩ clause member
  obtain ⟨number, _, rfl⟩ := Option.map_eq_some_iff.mp member
  exact field.isFieldName

theorem relative_wellFormed (relation : Relation) :
    Takes (relative relation) (fun _ => WellFormedAnswer classes) := by
  have quotedText : Takes quoted1 (fun _ body => body ≠ []) :=
    takes_quoted1.mono (fun _ _ facts => facts.2.1)
  have expression : Takes ((do pure (unquoted (← quoted1))) <|>
      (do pure (String.ofList (← plainOperand relation.startsOperand))))
      (fun _ expression => expression.toList ≠ []) := by
    apply Takes.orElse
    · refine quotedText.answer_of (fun body nonempty => (takes_pure _).mono ?_)
      rintro _ _ ⟨_, rfl⟩
      rw [unquoted, String.toList_ofList]
      exact LiteralKind.quote.unescape_ne_nil nonempty
    · refine (plainOperand_nonempty _).answer_of (fun operand nonempty => (takes_pure _).mono ?_)
      rintro _ _ ⟨_, rfl⟩
      rwa [String.toList_ofList]
  exact field_of_target.answer_of (fun _ field => (takes_exactly _).answer
    (fun _ => expression.answer_of (fun _ nonempty => takes_wellFormed ⟨field, nonempty⟩)))

theorem subquery_wellFormed {embed : List Char → List Char → Option Query}
    (registered : ∀ className text query, embed className text = some query →
      ∃ target ∈ classes, query.options.className = target.name) :
    Takes (subquery embed) (fun _ => WellFormedAnswer classes) := by
  refine (takes_subquery embed).mono ?_
  rintro _ _ ⟨field, negated, body, _, _, _, _, rfl⟩ clause member
  obtain ⟨query, made, rfl⟩ := Option.map_eq_some_iff.mp member
  exact ⟨field.isFieldName, registered _ _ query made⟩

end

end Clause

/-- What any pass over a text says has well-formed operands, if the queries of references are for
registered classes. -/
theorem Stage.placed_wellFormed {classes : List EntityClass}
    {embed : List Char → List Char → Option Query}
    (registered : ∀ className text query, embed className text = some query →
      ∃ target ∈ classes, query.options.className = target.name) :
    ∀ pass ∈ placed (all embed), pass.reader.Takes (fun _ => Clause.WellFormedAnswer classes) :=
  forall_placed (Clause.subquery_wellFormed registered) Clause.equal_wellFormed
    Clause.reference_wellFormed Clause.contain_wellFormed Clause.regex_wellFormed
    Clause.like_wellFormed Clause.guid_wellFormed Clause.truthy_wellFormed Clause.tag_wellFormed
    Clause.absolute_wellFormed Clause.relative_wellFormed

namespace Compiler

variable {compiler : Compiler}

theorem wellFormed_of_filled {inner : Inner} {property : Selector → Prop}
    (yields : inner.Yields property) {selector : Selector}
    (filled : selector.Filled (compiler.embed inner)) : selector.WellFormed compiler.classes := by
  constructor
  · intro family negated condition member
    apply (filled.said family negated condition member).of_answers
    exact Stage.placed_wellFormed (fun _ _ _ embedded => (yields.embed embedded).1)
  · intro negated field member
    rw [filled.defined] at member
    cases negated <;> cases member

theorem keeps_wellFormed (drops : compiler.bareHandler.Drops) :
    compiler.Keeps (fun _ selector => ∀ steps target, selector.Reaches steps target →
      target.WellFormed compiler.classes) := by
  constructor
  · intro _ text cls fields selector answer
    rw [drops] at answer
    cases answer
  · intro _ inner selector yields filled children steps target path
    cases path with
    | here => exact wellFormed_of_filled yields filled
    | step below path => exact children _ below _ target path
  · intro _ selector own
    exact own

/-- Every clause of a compiled query has well-formed operands, however deep it stands. -/
theorem operands_of_compile (compiler : Compiler) (drops : compiler.bareHandler.Drops)
    (text : String) (cls : EntityClass) {top target : Selector} {steps : Nat}
    (member : top ∈ (compiler.compile text cls).selectors) (path : top.Reaches steps target) :
    target.WellFormed compiler.classes :=
  (keeps_wellFormed drops).compile text cls top member steps target path

def groupsOnly : Compiler := { classes := [⟨"Group", []⟩], bareHandler := BareText.ignore }

def recentSelector : Selector :=
  { kind := .allOf, clauses := { greater := ⟨[.relative "a" "1 day"], []⟩ } }

def recentGroups : Selector :=
  { kind := .allOf, subqueries := ⟨[("g", ⟨{ className := "Group" }, [recentSelector]⟩)], []⟩ }

def recentText : List Char := "g<\x7bGroup a>\"1 day\" left\x7d>".toList

/-- The comparison stands in the query of a reference, with its time expression. -/
theorem operands_of_compile_recent :
    groupsOnly.bareHandler.Drops ∧
      recentGroups ∈ (groupsOnly.compile (String.ofList recentText) ⟨"User", []⟩).selectors ∧
      recentGroups.Reaches 1 recentSelector ∧ recentSelector.WellFormed groupsOnly.classes := by
  have drops : groupsOnly.bareHandler.Drops := fun _ _ _ => rfl
  have compiled : groupsOnly.queryAt Selector.simplify 32 ⟨"User", []⟩ recentText =
      ⟨{ className := "User" }, [recentGroups]⟩ := by
    decide +kernel
  have member : recentGroups ∈
      (groupsOnly.compile (String.ofList recentText) ⟨"User", []⟩).selectors := by
    have made : groupsOnly.compile (String.ofList recentText) ⟨"User", []⟩ =
        ⟨{ className := "User" }, [recentGroups]⟩ := by
      rw [compile, String.toList_ofList]
      exact compiled
    rw [made]
    exact List.mem_singleton_self recentGroups
  have path : recentGroups.Reaches 1 recentSelector :=
    .step (.queried false _ (List.mem_singleton_self _) (List.mem_singleton_self _)) (.here _)
  exact ⟨drops, member, path, operands_of_compile groupsOnly drops _ ⟨"User", []⟩ member path⟩

end Compiler

end SelectorLang
