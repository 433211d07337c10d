import Mathlib.Data.List.Basic
import SelectorLang.Proofs.LoneTokens
import SelectorLang.Proofs.ReferenceRegions
import SelectorLang.Proofs.Remainders
import SelectorLang.Selector.Equality

set_option autoImplicit false

namespace SelectorLang

/-- A query text with nothing but a containment. -/
def angleText (field : FieldName) (negated : Bool) (value : List Char) : List Char :=
  field.chars ++ Clause.mark negated ++ '<' :: (LiteralKind.angle.escape value ++ ['>'])

/-- The value stands in braces and closes none inside them: behind a field it is a reference. -/
def Braced (value : List Char) : Prop :=
  ∃ inside, inside ≠ [] ∧ '\x7d' ∉ inside ∧ value = '\x7b' :: (inside ++ ['\x7d'])

namespace Body

variable {closes : Char → Bool}

theorem not_closing {c : Char} {rest : List Char} (unescaped : c ≠ '\\')
    (closing : closes c = true) :
    ¬Body closes (c :: rest) := by
  intro units
  have inside := (units.tail unescaped).1
  rw [closing] at inside
  cases inside

/-- A closing character in a body stands behind a backslash. -/
theorem backslash_before {text before after : List Char} {c d : Char} (units : Body closes text)
    (unescaped : d ≠ '\\') (closing : closes d = true) (parts : text = before ++ c :: d :: after) :
    c = '\\' := by
  induction units generalizing before with
  | nil => cases before <;> cases parts
  | pair e rest _ units ih =>
    match before, parts with
    | [], parts => exact (List.cons.inj parts).1.symm
    | [_], parts =>
      obtain ⟨rfl, behind⟩ := List.cons.inj (List.cons.inj parts).2
      rw [behind] at units
      exact absurd units (not_closing unescaped closing)
    | _ :: _ :: _, parts => exact ih (List.cons.inj (List.cons.inj parts).2).2
  | plain e rest _ _ units ih =>
    cases before with
    | nil =>
      rw [(List.cons.inj parts).2] at units
      exact absurd units (not_closing unescaped closing)
    | cons _ before => exact ih (List.cons.inj parts).2

end Body

namespace LiteralKind

/-- Behind an escaped value a bracket still opens nothing. -/
theorem backslash_of_opening {value before after : List Char} {c : Char}
    (parts : angle.escape value ++ ['>'] = before ++ c :: '<' :: after) : c = '\\' := by
  have weaker : ∀ c, angle.isDelimiter c = false → (c == '<') = false :=
    fun _ inside => (Bool.or_eq_false_iff.mp inside).1
  have units : Body (· == '<') (angle.escape value ++ ['>']) :=
    ((angle.body_escape value).mono weaker).append (.plain '>' [] (by decide) rfl .nil)
  exact units.backslash_before (by decide) rfl parts

/-- The first bracket that closes without a backslash is the last character. -/
theorem last_of_closing {value before after : List Char} {c : Char} (unescaped : c ≠ '\\')
    (parts : angle.escape value ++ ['>'] = before ++ c :: '>' :: after) : after = [] := by
  rcases List.eq_nil_or_concat' after with none | ⟨inside, last, rfl⟩
  · exact none
  · have whole : angle.escape value ++ ['>'] = (before ++ c :: '>' :: inside) ++ [last] := by
      rw [parts, List.append_assoc]
      rfl
    have front : angle.escape value = before ++ c :: '>' :: inside := (List.append_inj' whole rfl).1
    exact absurd ((angle.body_escape value).backslash_before (by decide) rfl front) unescaped

/-- Escaping brackets hides no brace. -/
theorem braceless_of_body {text : List Char} (units : Body (· == '\x7d') (angle.escape text)) :
    '\x7d' ∉ text := by
  induction text with
  | nil => exact List.not_mem_nil
  | cons c rest ih =>
    rw [escape] at units
    rw [List.mem_cons, not_or]
    split at units
    · rename_i special
      cases units with
      | pair _ _ _ later =>
        refine ⟨?_, ih later⟩
        rintro rfl
        cases special
      | plain _ _ unescaped => exact absurd rfl unescaped
    · rename_i ordinary
      have unescaped : c ≠ '\\' := by
        rintro rfl
        exact ordinary rfl
      obtain ⟨inside, later⟩ := units.tail unescaped
      exact ⟨(beq_eq_false_iff_ne.mp inside).symm, ih later⟩

/-- A value whose escaped text is a body in braces is braced. -/
theorem braced_of_escape {value body : List Char} (nonempty : body ≠ [])
    (units : Body (· == '\x7d') body)
    (written : angle.escape value = '\x7b' :: (body ++ ['\x7d'])) : Braced value := by
  cases value with
  | nil => cases written
  | cons c rest =>
    have first : c = '\x7b' ∧ angle.escape rest = body ++ ['\x7d'] := by
      rw [escape] at written
      split at written
      · cases (List.cons.inj written).1
      · exact List.cons.inj written
    obtain ⟨rfl, behind⟩ := first
    rcases List.eq_nil_or_concat' rest with rfl | ⟨inside, last, rfl⟩
    · exact absurd behind.symm (List.append_ne_nil_of_right_ne_nil body (List.cons_ne_nil _ []))
    · rw [escape_append] at behind
      -- The last character is the closing brace, which is not escaped.
      obtain ⟨lead, ends⟩ : ∃ lead, angle.escape [last] = lead ++ [last] := by
        rw [escape]
        split
        · exact ⟨['\\'], rfl⟩
        · exact ⟨[], rfl⟩
      have parts := behind
      rw [ends, ← List.append_assoc] at parts
      have closed : last = '\x7d' := (List.cons.inj (List.append_inj' parts rfl).2).1
      rw [closed] at behind ⊢
      have same : angle.escape inside = body := List.append_cancel_right behind
      refine ⟨inside, ?_, braceless_of_body (same ▸ units), rfl⟩
      rintro rfl
      exact nonempty same.symm

end LiteralKind

namespace Clause

open Reader

variable (field : FieldName) (negated : Bool) {value : List Char}

/-- Fields and marks tell the operands behind them apart. -/
theorem operand_of_same {first second : FieldName} {left right : Bool} {one other : List Char}
    (same : first.chars ++ mark left ++ '<' :: one = second.chars ++ mark right ++ '<' :: other) :
    one = other := by
  have read := congrArg target same
  rw [target_append first left rfl (by decide), target_append second right rfl (by decide)] at read
  exact (List.cons.inj (Prod.mk.inj (Option.some.inj read)).2).2

/-- No reference is read in the text of a value that is not braced. -/
theorem not_occurs_angleText {α : Type} {reader : Reader α}
    (takes : reader.Takes (fun lexeme _ => ∃ field negated body,
      lexeme = subqueryText field negated body ∧ body ≠ [] ∧ Body (· == '\x7d') body))
    (unbraced : ¬Braced value) : ¬Token.Occurs reader (angleText field negated value) := by
  intro occurs
  have parts : angleText field negated value =
      (field.chars ++ mark negated ++ ['<']) ++ (LiteralKind.angle.escape value ++ ['>']) := by
    simp only [angleText, List.append_assoc, List.cons_append, List.nil_append]
  have dark := Phrase.dark_lead field negated (Eq.refl (isBlank '<'))
  rw [parts] at occurs
  rcases Token.occurs_behind dark occurs with front | ⟨more, rest, behind, _, _, inner⟩
  · rw [← parts] at front
    obtain ⟨⟨length, found⟩, read⟩ := Option.ne_none_iff_exists'.mp front
    obtain ⟨_, after, whole, _, _, ⟨name, sign, body, rfl, nonempty, units⟩, _⟩ :=
      Token.lexeme_of_readAt takes read
    have inside : LiteralKind.angle.escape value ++ ['>'] =
        ('\x7b' :: body) ++ '\x7d' :: '>' :: after := by
      have operands := @operand_of_same field name negated sign
        (LiteralKind.angle.escape value ++ ['>']) ('\x7b' :: (body ++ '\x7d' :: '>' :: after))
      apply operands
      rw [← angleText, whole]
      simp only [subqueryText, List.append_assoc, List.cons_append, List.nil_append]
    have last := LiteralKind.last_of_closing (by decide) inside
    rw [last] at inside
    have closing : ('\x7b' :: body) ++ ['\x7d', '>'] = '\x7b' :: (body ++ ['\x7d']) ++ ['>'] := by
      simp
    rw [closing] at inside
    have written : LiteralKind.angle.escape value = '\x7b' :: (body ++ ['\x7d']) :=
      List.append_cancel_right inside
    exact unbraced (LiteralKind.braced_of_escape nonempty units written)
  · obtain ⟨⟨length, found⟩, read⟩ := Option.ne_none_iff_exists'.mp inner
    obtain ⟨_, after, whole, _, _, ⟨name, sign, body, rfl, _⟩, _⟩ :=
      Token.lexeme_of_readAt takes read
    -- The bracket of a reference stands behind its field or its mark.
    rcases List.eq_nil_or_concat' (name.chars ++ mark sign) with none | ⟨lead, c, shape⟩
    · exact absurd none (List.append_ne_nil_of_left_ne_nil name.nonempty _)
    · have backslash : c = '\\' := by
        have opening : LiteralKind.angle.escape value ++ ['>'] =
            (more ++ lead) ++ c :: '<' :: ('\x7b' :: (body ++ '\x7d' :: '>' :: after)) := by
          rw [behind, whole, subqueryText, shape]
          simp only [List.append_assoc, List.cons_append, List.nil_append]
        exact LiteralKind.backslash_of_opening opening
      have plain : ∀ d ∈ name.chars ++ mark sign, d ≠ '\\' :=
        Phrase.forall_lead name sign (fun _ letter => ne_of_accepted letter rfl) (by decide)
      have member : c ∈ name.chars ++ mark sign := by
        rw [shape]
        exact List.mem_append_right lead (List.mem_singleton_self c)
      exact plain c member backslash

/-- If no equality is found, no stage finds anything in the text before its own does. -/
theorem early_angleText (embed : List Char → List Char → Option Query) (unbraced : ¬Braced value)
    (unequal : Piece.tokens (Token.scan equal (angleText field negated value)) = []) :
    ∀ pass ∈ ([⟨"qref", 0, subquery embed⟩, ⟨"equal", 0, equal⟩, ⟨"ref", 0, reference⟩] :
      List Pass), Piece.tokens (pass.pieces (angleText field negated value)) = [] := by
  have subqueries := not_occurs_angleText field negated (takes_subquery_body embed) unbraced
  have references := not_occurs_angleText field negated takes_reference_body unbraced
  refine List.forall_mem_cons.mpr ⟨Token.tokens_of_not_occurs subqueries, ?_⟩
  refine List.forall_mem_cons.mpr ⟨unequal, ?_⟩
  exact List.forall_mem_singleton.mpr (Token.tokens_of_not_occurs references)

def containment (value : List Char) : Clause :=
  ⟨negated, .contain (String.ofList field.chars) (valueOf value)⟩

theorem contain_angleText (nonempty : value ≠ []) :
    contain (angleText field negated value) =
      some (some (containment field negated value), []) := by
  have escaped := LiteralKind.angle.escape_ne_nil nonempty
  rw [angleText, contain_append field negated (LiteralKind.body_escape .angle value) escaped [],
    LiteralKind.unescape_escape]
  rfl

/-- The text of a braced value is the text of a reference. -/
theorem angleText_of_braced (braced : Braced value) :
    ∃ body, body ≠ [] ∧ Body (· == '\x7d') body ∧
      angleText field negated value = subqueryText field negated body := by
  obtain ⟨inside, nonempty, closed, rfl⟩ := braced
  refine ⟨LiteralKind.angle.escape inside, LiteralKind.angle.escape_ne_nil nonempty, ?_, ?_⟩
  · apply LiteralKind.body_escape_of_outside
    intro c member _
    rw [beq_eq_false_iff_ne]
    rintro rfl
    exact closed member
  · have opening : LiteralKind.angle.escape ('\x7b' :: (inside ++ ['\x7d'])) =
        '\x7b' :: LiteralKind.angle.escape (inside ++ ['\x7d']) := rfl
    have closing : LiteralKind.angle.escape ['\x7d'] = ['\x7d'] := rfl
    rw [angleText, subqueryText, opening, LiteralKind.escape_append, closing]
    simp

theorem dark_identifierText (identifier : Identifier) :
    ∀ c ∈ subqueryText field negated identifier.digits, isBlank c = false := by
  intro c member
  simp only [subqueryText, List.append_assoc, List.mem_append, List.mem_cons, List.not_mem_nil,
    or_false] at member
  rcases member with name | sign | rfl | rfl | digit | rfl | rfl
  · exact isBlank_of_isFieldChar (Phrase.isFieldChar_of_mem field name)
  · rw [eq_of_mem_mark sign]
    rfl
  · rfl
  · rfl
  · exact isBlank_of_isFieldChar (Phrase.isFieldChar_of_mem_identifier identifier digit)
  · rfl
  · rfl

/-- The text of a braced value is taken before containments are read, and says none. -/
theorem reads_braced (embed : List Char → List Char → Option Query) {body : List Char}
    (nonempty : body ≠ []) (units : Body (· == '\x7d') body)
    (unequal : Piece.tokens (Token.scan equal (subqueryText field negated body)) = []) :
    ∃ early pass late said, Stage.placed (Stage.all embed) = early ++ pass :: late ∧
      (∀ other ∈ early, Piece.tokens (other.pieces (subqueryText field negated body)) = []) ∧
      pass.reader (subqueryText field negated body) = some (said, []) ∧
      ∀ clause ∈ said.toList, clause.condition.family ≠ .contain := by
  have subqueries := subquery_append embed field negated nonempty units []
  rw [List.append_nil] at subqueries
  cases known : isIdentifier body with
  | false =>
    rw [known] at subqueries
    refine ⟨[], ⟨"qref", 0, subquery embed⟩, _, _, rfl, nofun, subqueries, ?_⟩
    intro clause member
    rw [Option.mem_toList, Option.map_eq_some_iff] at member
    obtain ⟨query, _, rfl⟩ := member
    exact nofun
  | true =>
    rw [known] at subqueries
    have digits := claims_reference field negated ⟨body, known⟩ [] rfl
    rw [List.append_nil] at digits
    refine ⟨[⟨"qref", 0, subquery embed⟩, ⟨"equal", 0, equal⟩], ⟨"ref", 0, reference⟩, _, _, rfl,
      ?_, digits, ?_⟩
    · have dark := dark_identifierText field negated ⟨body, known⟩
      have silent := Token.not_occurs_of_word dark subqueries
      refine List.forall_mem_cons.mpr ⟨Token.tokens_of_not_occurs silent, ?_⟩
      exact List.forall_mem_singleton.mpr unequal
    · intro clause member
      rw [Option.toList_some, List.mem_singleton] at member
      subst member
      exact nofun

/-- The value opens no parenthesis, and has no blanks or neither of the signs of equalities and
directives. -/
structure Plain (value : List Char) : Prop where
  paren : '(' ∉ value
  signs : (∀ c ∈ value, isBlank c = false) ∨ '=' ∉ value ∧ ':' ∉ value

theorem forall_angleText {holds : Char → Prop} (letters : ∀ c, isFieldChar c = true → holds c)
    (mark : holds '!') (opening : holds '<') (closing : holds '>') (backslash : holds '\\')
    (own : ∀ c ∈ value, holds c) : ∀ c ∈ angleText field negated value, holds c := by
  have escaped := LiteralKind.angle.forall_escape backslash own
  refine List.forall_mem_append.mpr ⟨Phrase.forall_lead field negated letters mark, ?_⟩
  refine List.forall_mem_cons.mpr ⟨opening, ?_⟩
  exact List.forall_mem_append.mpr ⟨escaped, List.forall_mem_singleton.mpr closing⟩

theorem not_mem_angleText {sign : Char} (outside : isFieldChar sign = false)
    (other : '!' ≠ sign ∧ '<' ≠ sign ∧ '>' ≠ sign ∧ '\\' ≠ sign) (absent : sign ∉ value) :
    sign ∉ angleText field negated value := by
  obtain ⟨mark, opening, closing, backslash⟩ := other
  have own : ∀ c ∈ value, c ≠ sign := by
    rintro c member rfl
    exact absent member
  have differs := forall_angleText field negated (fun _ letter => ne_of_accepted letter outside)
    mark opening closing backslash own
  exact fun member => differs sign member rfl

theorem dark_angleText (dark : ∀ c ∈ value, isBlank c = false) :
    ∀ c ∈ angleText field negated value, isBlank c = false :=
  forall_angleText field negated (fun _ => isBlank_of_isFieldChar) rfl rfl rfl rfl dark

theorem needs_equals (rest : List Char) (absent : '=' ∉ rest) : equal rest = none :=
  Reader.needs_bind takes_target.front (fun _ _ absent => Reader.bind_of_none _
    (Reader.exactly_of_not_mem (List.mem_singleton_self '=') absent)) rest absent

theorem tokens_equal_angleText (plain : Plain value) :
    Piece.tokens (Token.scan equal (angleText field negated value)) = [] := by
  apply Token.tokens_of_not_occurs
  rcases plain.signs with dark | ⟨equals, _⟩
  · exact Token.not_occurs_of_word (dark_angleText field negated dark)
      (unread_sign field negated rfl (by decide) rfl _)
  · exact Token.not_occurs_of_not_mem needs_equals
      (not_mem_angleText field negated rfl (by decide) equals)

theorem extract_angleText (plain : Plain value) (className : String) :
    Directive.extract (angleText field negated value) { className := className } =
      (angleText field negated value, { className := className }) := by
  apply Directive.extract_of_free
  rcases plain.signs with dark | ⟨_, colon⟩
  · exact Directive.free_of_word field negated rfl rfl (dark_angleText field negated dark)
  · apply Directive.free_of_colon
    intro α word _ next
    exact Token.not_occurs_of_not_mem (Directive.needs_colon word next)
      (not_mem_angleText field negated rfl (by decide) colon)

theorem groups_angleText (plain : Plain value) :
    (split (angleText field negated value)).groups = [] :=
  groups_of_not_mem (not_mem_angleText field negated rfl (by decide) plain.paren)

end Clause

namespace Compiler

open Clause

def angleQuery (cls : EntityClass) (field : FieldName) (negated : Bool) (value : List Char) :
    Query :=
  ⟨{ className := cls.name },
    [({ kind := .allOf } : Selector).addAll [containment field negated value]]⟩

/-- Clauses of another family do not make the query of a containment. -/
theorem angleQuery_ne (cls : EntityClass) (field : FieldName) (negated : Bool) (value : List Char)
    {clauses : List Clause} (other : ∀ clause ∈ clauses, clause.condition.family ≠ .contain) :
    ⟨{ className := cls.name }, [({ kind := .allOf } : Selector).addAll clauses]⟩ ≠
      angleQuery cls field negated value := by
  intro same
  have selectors := (List.cons.inj (Query.mk.inj same).2).1
  have none : clauses.filter (·.belongs .contain negated) = [] := by
    apply List.filter_eq_nil_iff.mpr
    intro clause member
    simp only [Clause.belongs, other clause member, false_and, decide_false, Bool.false_eq_true,
      not_false_eq_true]
  have silent : (({ kind := .allOf } : Selector).addAll clauses).listed .contain negated = [] := by
    rw [Selector.listed_addAll, none]
    cases negated <;> rfl
  have own : (({ kind := .allOf } : Selector).addAll [containment field negated value]).listed
      .contain negated = [(containment field negated value).condition] := by
    cases negated <;> rfl
  rw [selectors, own] at silent
  cases silent

section

variable (compiler : Compiler) (cls : EntityClass) (field : FieldName) (negated : Bool)
  {value : List Char}

/-- A value in whose text no group, no directive and no equality is found is contained as it is
written just where it is not braced. -/
theorem compile_eq_angleQuery_iff (nonempty : value ≠ [])
    (groupless : (split (angleText field negated value)).groups = [])
    (free : Directive.extract (angleText field negated value) { className := cls.name } =
      (angleText field negated value, { className := cls.name }))
    (unequal : Piece.tokens (Token.scan equal (angleText field negated value)) = []) :
    compiler.compile (String.ofList (angleText field negated value)) cls =
        angleQuery cls field negated value ↔
      ¬Braced value := by
  have full : angleText field negated value ≠ [] := Phrase.lead_ne_nil field negated _
  constructor
  · intro compiled braced
    obtain ⟨body, inside, units, same⟩ := angleText_of_braced field negated braced
    rw [same] at unequal
    obtain ⟨early, pass, late, said, order, absent, read, other⟩ :=
      reads_braced field negated (compiler.embed
        (compiler.innerAt Selector.simplify compiler.maxDepth cls)) inside units unequal
    rw [← same] at absent read
    rw [compiler.compile_of_whole cls groupless free full order absent read] at compiled
    exact angleQuery_ne cls field negated value other compiled
  · intro unbraced
    have order : Stage.placed (Stage.all
        (compiler.embed (compiler.innerAt Selector.simplify compiler.maxDepth cls))) =
          [⟨"qref", 0, subquery _⟩, ⟨"equal", 0, equal⟩, ⟨"ref", 0, reference⟩] ++
            ⟨"contain", 0, contain⟩ ::
              (Stage.placed (Stage.all (compiler.embed
                (compiler.innerAt Selector.simplify compiler.maxDepth cls)))).drop 4 := rfl
    have absent := early_angleText field negated
      (compiler.embed (compiler.innerAt Selector.simplify compiler.maxDepth cls)) unbraced unequal
    exact compiler.compile_of_whole cls groupless free full order absent
      (contain_angleText field negated nonempty)

/-- A value in whose text no group, no directive and no equality is found is contained as it is
written, and nothing else comes of it, just where it is not braced. Nothing is found in the texts of
plain values. -/
theorem compile_angleText (nonempty : value ≠ []) :
    ((split (angleText field negated value)).groups = [] →
      Directive.extract (angleText field negated value) { className := cls.name } =
        (angleText field negated value, { className := cls.name }) →
      Piece.tokens (Token.scan equal (angleText field negated value)) = [] →
      (compiler.compile (String.ofList (angleText field negated value)) cls =
          angleQuery cls field negated value ↔
        ¬Braced value)) ∧
    (Plain value →
      (compiler.compile (String.ofList (angleText field negated value)) cls =
          angleQuery cls field negated value ↔
        ¬Braced value)) := by
  refine ⟨compiler.compile_eq_angleQuery_iff cls field negated nonempty, fun plain => ?_⟩
  exact compiler.compile_eq_angleQuery_iff cls field negated nonempty
    (groups_angleText field negated plain) (extract_angleText field negated plain cls.name)
    (tokens_equal_angleText field negated plain)

end

/-- The value `["a<b", "c d"]`, with a bracket and a blank, and JSON for two strings. -/
def listedValue : List Char := "[\"a<b\", \"c d\"]".toList

def noteField : FieldName :=
  ⟨['n', 'o', 't', 'e'], List.cons_ne_nil 'n' ['o', 't', 'e'], rfl⟩

theorem compile_angleText_listed :
    listedValue ≠ [] ∧ (split (angleText noteField true listedValue)).groups = [] ∧
      Directive.extract (angleText noteField true listedValue) { className := "User" } =
        (angleText noteField true listedValue, { className := "User" }) ∧
      Piece.tokens (Token.scan equal (angleText noteField true listedValue)) = [] ∧
      valueOf listedValue = .array [.string "a<b", .string "c d"] ∧ Plain listedValue ∧
      ({} : Compiler).compile (String.ofList (angleText noteField true listedValue))
        ⟨"User", []⟩ = angleQuery ⟨"User", []⟩ noteField true listedValue := by
  have nonempty : listedValue ≠ [] := by decide +kernel
  have groupless : (split (angleText noteField true listedValue)).groups = [] := by decide +kernel
  have free : Directive.extract (angleText noteField true listedValue) { className := "User" } =
      (angleText noteField true listedValue, { className := "User" }) := by
    decide +kernel
  have unequal : Piece.tokens (Token.scan equal (angleText noteField true listedValue)) = [] := by
    apply List.isEmpty_iff.mp
    decide +kernel
  have value : valueOf listedValue = .array [.string "a<b", .string "c d"] := by decide +kernel
  have unbraced : ¬Braced listedValue := by
    rintro ⟨inside, _, _, same⟩
    cases same
  have plain : Plain listedValue := by
    refine ⟨by decide +kernel, Or.inr (by decide +kernel)⟩
  obtain ⟨written, ordinary⟩ := compile_angleText {} ⟨"User", []⟩ noteField true nonempty
  refine ⟨nonempty, groupless, free, unequal, value, plain, ?_⟩
  exact (written groupless free unequal).mpr unbraced

/-- Values that are not contained as they are written: `{a}` is read as a reference, `(a)` is a
group, `limit:1` is a directive between two blanks, and `b=1` is an equality there. -/
theorem angleText_misread :
    ({} : Compiler).compile (String.ofList (angleText noteField false "\x7ba\x7d".toList))
        ⟨"User", []⟩ ≠ angleQuery ⟨"User", []⟩ noteField false "\x7ba\x7d".toList ∧
      ({} : Compiler).compile (String.ofList (angleText noteField false "(a)".toList))
        ⟨"User", []⟩ ≠ angleQuery ⟨"User", []⟩ noteField false "(a)".toList ∧
      ({} : Compiler).compile (String.ofList (angleText noteField false "a limit:1 b".toList))
        ⟨"User", []⟩ ≠ angleQuery ⟨"User", []⟩ noteField false "a limit:1 b".toList ∧
      ({} : Compiler).compile (String.ofList (angleText noteField false "a b=1 c".toList))
        ⟨"User", []⟩ ≠ angleQuery ⟨"User", []⟩ noteField false "a b=1 c".toList := by
  simp only [compile, String.toList_ofList]
  decide +kernel

end Compiler

end SelectorLang
