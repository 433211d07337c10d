import SelectorLang.Proofs.EscapedBodies
import SelectorLang.Proofs.LeadingBlanks
import SelectorLang.Proofs.NormalForm

set_option autoImplicit false

namespace SelectorLang

structure ClassName where
  chars : List Char
  nonempty : chars ≠ []
  wellFormed : chars.all (fun c => !isBlank c) = true

theorem ClassName.dark (target : ClassName) : ∀ c ∈ target.chars, isBlank c = false := by
  intro c member
  rw [← Bool.not_eq_true']
  exact List.all_eq_true.mp target.wellFormed c member

def referenceBody (target : ClassName) (query : List Char) : List Char :=
  LiteralKind.curly.escape (target.chars ++ ' ' :: query)

/-- A query text with nothing but a reference to a class by a query. -/
def referenceText (field : FieldName) (target : ClassName) (query : List Char) : List Char :=
  Clause.subqueryText field false (referenceBody target query)

/-- The part of a reference in front of the blank behind the class. -/
def referenceFront (field : FieldName) (target : ClassName) : List Char :=
  field.chars ++ '<' :: '\x7b' :: LiteralKind.curly.escape target.chars

variable (field : FieldName) (target : ClassName)

theorem dark_escape : ∀ c ∈ LiteralKind.curly.escape target.chars, isBlank c = false := by
  apply LiteralKind.curly.forall_escape _ target.dark
  rfl

theorem referenceBody_eq (query : List Char) :
    referenceBody target query =
      LiteralKind.curly.escape target.chars ++ ' ' :: LiteralKind.curly.escape query := by
  rw [referenceBody, LiteralKind.escape_append]
  rfl

theorem referenceText_eq (query : List Char) :
    referenceText field target query =
      referenceFront field target ++
        ' ' :: (LiteralKind.curly.escape query ++ ['\x7d', '>']) := by
  simp only [referenceText, Clause.subqueryText, referenceFront, referenceBody_eq,
    Clause.mark_false, List.append_nil, List.append_assoc, List.cons_append]

/-- A reference tells its query. -/
theorem referenceText_injective {first second : List Char}
    (same : referenceText field target first = referenceText field target second) :
    first = second := by
  rw [referenceText_eq, referenceText_eq] at same
  have bodies := List.append_cancel_right (List.cons.inj (List.append_cancel_left same)).2
  rw [← LiteralKind.unescape_escape .curly first, bodies, LiteralKind.unescape_escape]

open Scanner in
/-- There are no groups in a reference. -/
theorem split_reference (query : List Char) :
    split (referenceText field target query) = ⟨[], referenceText field target query⟩ := by
  have name : Hides {} field.chars {} :=
    hides_ordinary (fun c member =>
      isOrdinary_of_isFieldChar (Phrase.isFieldChar_of_mem field member))
  have body := hides_reference (LiteralKind.body_escape .curly (target.chars ++ ' ' :: query))
    (.ordinary (c := '>') rfl (.nil {}))
  refine @split_of_hides _ {} ?_
  rw [referenceText, Clause.subqueryText, Clause.mark_false, List.append_nil]
  exact name.append (.cons (Or.inr (by decide)) rfl body)

namespace Directive

open Token

/-- A scan for a directive leaves a closed body behind a word and a blank, and the word. -/
theorem rest_scan_body {α : Type} {reader : Reader α} (dark : reader.Dark)
    (takes : reader.Takes (fun lexeme _ => Unmarked lexeme)) {front : List Char}
    (word : ∀ c ∈ front, isBlank c = false) (refuses : ∀ rest, reader (front ++ rest) = none)
    {plain taken : Char → Prop} {body : List Char} (units : Units plain taken body)
    (space : plain ' ') {tail : List Char} (blank : tail.all isBlank = true) :
    ∃ left, Units plain taken left ∧
      Piece.rest (scan reader (front ++ ' ' :: (body ++ '\x7d' :: '>' :: tail))) =
        front ++ ' ' :: (left ++ '\x7d' :: '>' :: tail) := by
  have unread : readAt reader (front ++ ' ' :: (body ++ '\x7d' :: '>' :: tail)) = none :=
    readAt_of_none (refuses _)
  obtain ⟨start, before⟩ := scanFrom_dark word
    (Literal.spans (front ++ ' ' :: (body ++ '\x7d' :: '>' :: tail))) 0 true (Or.inr unread)
  have silent := readAt_of_none (dark ' ' (body ++ '\x7d' :: '>' :: tail) rfl)
  obtain ⟨left, kept, behind⟩ := rest_scanFrom_units dark takes space
    (Literal.spans (front ++ ' ' :: (body ++ '\x7d' :: '>' :: tail))) blank units
    (0 + front.length + 1) (isBlank ' ')
  refine ⟨left, kept, ?_⟩
  rw [scan, before, scanFrom_other (Or.inr silent), Slot.rest_others, Piece.rest, behind]

/-- Taking the directives out of a text that begins with a field, a bracket and the rest of a word
leaves the word and a closed body behind it. -/
theorem extract_body {front more : List Char} (begins : front = field.chars ++ '<' :: more)
    (word : ∀ c ∈ front, isBlank c = false) {plain taken : Char → Prop} {body : List Char}
    (units : Units plain taken body) (space : plain ' ') {tail : List Char}
    (blank : tail.all isBlank = true) (options : Options) :
    ∃ left, Units plain taken left ∧
      (extract (front ++ ' ' :: (body ++ '\x7d' :: '>' :: tail)) options).1 =
        front ++ ' ' :: (left ++ '\x7d' :: '>' :: tail) := by
  have refuses : ∀ {α : Type} (name : List Char), name.all isFieldChar = true →
      ∀ (next : Unit → Reader α) rest,
        (Reader.exactly (name ++ [':']) >>= next) (front ++ rest) = none := by
    intro α name wellFormed next rest
    rw [begins, List.append_assoc, List.cons_append]
    exact unread_below field name wellFormed next (more ++ rest)
  obtain ⟨_, first, limits⟩ := rest_scan_body dark_limit takes_limit word
    (refuses ['l', 'i', 'm', 'i', 't'] rfl _) units space blank
  obtain ⟨_, second, offsets⟩ := rest_scan_body dark_offset takes_offset word
    (refuses ['o', 'f', 'f', 's', 'e', 't'] rfl _) first space blank
  obtain ⟨_, third, sorts⟩ := rest_scan_body dark_sort takes_sort word
    (refuses ['s', 'o', 'r', 't'] rfl _) second space blank
  obtain ⟨left, last, reversals⟩ := rest_scan_body dark_reverse takes_reverse word
    (refuses ['r', 'e', 'v', 'e', 'r', 's', 'e'] rfl _) third space blank
  refine ⟨left, last, ?_⟩
  simp only [extract, limits, offsets, sorts, reversals]

/-- Taking the directives out of a reference leaves a reference with another query. -/
theorem extract_reference (query : List Char) (options : Options) :
    ∃ left, (extract (referenceText field target query) options).1 =
      referenceText field target left := by
  have word : ∀ c ∈ referenceFront field target, isBlank c = false := by
    intro c member
    rcases List.mem_append.mp member with name | later
    · exact isBlank_of_isFieldChar (Phrase.isFieldChar_of_mem field name)
    · rcases List.mem_cons.mp later with rfl | last
      · rfl
      · rcases List.mem_cons.mp last with rfl | letter
        · rfl
        · exact dark_escape target c letter
  have begins : referenceFront field target =
      field.chars ++ '<' :: '\x7b' :: LiteralKind.curly.escape target.chars := rfl
  obtain ⟨left, kept, extracted⟩ := extract_body field begins word (units_escape query) rfl
    (Eq.refl (List.all [] isBlank)) options
  obtain ⟨rest, rfl⟩ := exists_escape kept
  refine ⟨rest, ?_⟩
  rw [referenceText_eq, referenceText_eq]
  exact extracted

end Directive

theorem Text.trimEnd_append {word : List Char} (dark : ∀ c ∈ word, isBlank c = false)
    (text : List Char) : trimEnd (word ++ text) = word ++ trimEnd text := by
  have kept : word.reverse.dropWhile isBlank = word.reverse := by
    cases reversed : word.reverse with
    | nil => rfl
    | cons c others =>
      have member : c ∈ word := List.mem_reverse.mp (reversed ▸ List.mem_cons_self)
      rw [List.dropWhile_cons, dark c member, if_neg Bool.false_ne_true]
  rw [trimEnd, trimEnd, List.reverse_append, List.dropWhile_append, kept]
  split
  · rename_i blank
    rw [List.isEmpty_iff.mp blank, List.reverse_reverse, List.reverse_nil, List.append_nil]
  · rw [List.reverse_append, List.reverse_reverse]

/-- The part behind the first blank of a text that begins with a word. -/
theorem Text.cutAtBlank_append {word : List Char} (dark : ∀ c ∈ word, isBlank c = false)
    {rest : List Char} (ends : Token.endsWord rest = true) :
    cutAtBlank (word ++ rest) = (word, rest.drop 1) := by
  have stops : Reader.Stops (fun c => !isBlank c) rest :=
    Reader.stops_of_endsWord ends (fun c blank => by rw [blank]; rfl)
  have plain : ∀ c ∈ word, (!isBlank c) = true := by
    intro c member
    rw [dark c member]
    rfl
  rw [cutAtBlank, List.takeWhile_append_of_pos plain, List.dropWhile_append_of_pos plain,
    stops.takeWhile, stops.dropWhile, List.append_nil]

/-- Of a word and a text behind it the blanks at the end of the text are lost. -/
theorem Text.cutAtBlank_trim {word : List Char} (nonempty : word ≠ [])
    (dark : ∀ c ∈ word, isBlank c = false) (text : List Char) :
    cutAtBlank (trim (word ++ ' ' :: text)) = (word, trimEnd text) := by
  have start : trimStart (word ++ ' ' :: text) = word ++ ' ' :: text := by
    obtain ⟨c, others, parts⟩ := List.exists_cons_of_ne_nil nonempty
    have first : isBlank c = false := dark c (parts ▸ List.mem_cons_self)
    rw [trimStart, parts, List.cons_append, List.dropWhile_cons, first, if_neg Bool.false_ne_true]
  rw [trim, start, trimEnd_append dark, trimEnd_cons_blank rfl]
  split
  · rename_i blank
    rw [cutAtBlank_append dark rfl, blank]
    rfl
  · rw [cutAtBlank_append dark rfl]
    rfl

theorem bodyParts_append {word : List Char} (nonempty : word ≠ [])
    (dark : ∀ c ∈ word, isBlank c = false) (text : List Char) :
    Clause.bodyParts (word ++ ' ' :: text) =
      (LiteralKind.curly.unescape word, Text.trimEnd (LiteralKind.curly.unescape text)) := by
  have unescaped : ∀ c ∈ LiteralKind.curly.unescape word, isBlank c = false :=
    fun c member => dark c (LiteralKind.curly.mem_of_mem_unescape member)
  rw [Clause.bodyParts, LiteralKind.unescape_append_space,
    Text.cutAtBlank_trim (LiteralKind.curly.unescape_ne_nil nonempty) unescaped]

/-- The reader of subqueries takes a reference with a body of two parts whole. -/
theorem claims_subqueryText (embed : List Char → List Char → Option Query) (negated : Bool)
    {word text : List Char} (nonempty : word ≠ []) (dark : ∀ c ∈ word, isBlank c = false)
    (units : Body (· == '\x7d') (word ++ ' ' :: text)) :
    Token.Claims (Clause.subquery embed) (Clause.subqueryText field negated (word ++ ' ' :: text))
      ((embed (LiteralKind.curly.unescape word)
        (Text.trimEnd (LiteralKind.curly.unescape text))).map
          (fun query => ⟨negated, .subquery (String.ofList field.chars) query⟩)) := by
  intro after _
  have other : Clause.isIdentifier (word ++ ' ' :: text) = false := by
    rw [Clause.isIdentifier, Bool.and_eq_false_iff]
    right
    rw [List.all_eq_false]
    exact ⟨' ', List.mem_append_right word List.mem_cons_self, by decide⟩
  have inside := List.append_ne_nil_of_right_ne_nil word (List.cons_ne_nil ' ' text)
  have read := Clause.subquery_append embed field negated inside units after
  rw [other, bodyParts_append nonempty dark, if_neg Bool.false_ne_true] at read
  exact read

theorem claims_referenceText (embed : List Char → List Char → Option Query) (query : List Char) :
    Token.Claims (Clause.subquery embed) (referenceText field target query)
      ((embed target.chars (Text.trimEnd query)).map
        (fun embedded => ⟨false, .subquery (String.ofList field.chars) embedded⟩)) := by
  have units : Body (· == '\x7d') (referenceBody target query) := by
    apply (LiteralKind.body_escape .curly _).mono
    intro c inside
    exact (Bool.or_eq_false_iff.mp inside).2
  have nonempty := LiteralKind.curly.escape_ne_nil target.nonempty
  rw [referenceBody_eq] at units
  have claims := claims_subqueryText field embed false nonempty
    (dark_escape target) units
  rw [LiteralKind.unescape_escape, LiteralKind.unescape_escape, ← referenceBody_eq] at claims
  exact claims

/-- A word that a reader takes whole is the only token of a text with blanks behind it. -/
theorem Token.scan_alone {α : Type} {reader : Reader α} (dark : reader.Dark) {word : List Char}
    {value : α} (claims : Claims reader word value) (nonempty : word ≠ []) {tail : List Char}
    (blank : tail.all isBlank = true) :
    scan reader (word ++ tail) = .token word value :: tail.map .other := by
  have ends : endsWord tail = true := by
    cases tail with
    | nil => rfl
    | cons c rest =>
      rw [List.all_cons, Bool.and_eq_true] at blank
      exact blank.1
  have outside := any_strictlyInside_zero (Literal.spans (word ++ tail))
  rw [scan, scanFrom_claims claims nonempty ends outside, scanFrom_blanks dark _ blank]

namespace Compiler

/-- The stages read a subquery that stands alone and leave a space for it. -/
theorem fill_alone {compiler : Compiler} {inner : Inner} {lexeme : List Char} {said : Option Clause}
    (claims : Token.Claims (Clause.subquery (compiler.embed inner)) lexeme said)
    (nonempty : lexeme ≠ []) {tail : List Char} (blank : tail.all isBlank = true)
    (kind : Combinator) (groups : List Group) :
    compiler.fill inner kind groups (lexeme ++ tail) =
      (' ' :: tail,
        (({ kind := kind } : Selector).nest (groups.filterMap inner.group)).addAll
          said.toList) := by
  have scanned := Token.scan_alone (Clause.dark_subquery _) claims nonempty blank
  obtain ⟨others, passes, dark⟩ : ∃ others, Stage.placed (Stage.all (compiler.embed inner)) =
      ⟨"qref", 0, Clause.subquery (compiler.embed inner)⟩ :: others ∧
        ∀ pass ∈ others, pass.reader.Dark :=
    ⟨_, rfl, fun pass member => Stage.dark_of_mem (List.mem_cons_of_mem _ member)⟩
  have rest := Slot.rest_others tail ([] : List (Piece (Option Clause)))
  have tokens := Slot.tokens_others tail ([] : List (Piece (Option Clause)))
  rw [List.append_nil] at rest tokens
  have spaces : (' ' :: tail).all isBlank = true := blank
  obtain ⟨left, found⟩ := Pass.all_blank dark spaces
  rw [fill, Stage.runAll_eq, passes, Pass.restAll_cons, Pass.claimsAll, Pass.rest, Pass.claims,
    Pass.pieces, scanned]
  simp only [Piece.rest, Piece.tokens, rest, tokens, List.append_nil, left, found, List.map_cons,
    List.map_nil]
  cases said with
  | none => rfl
  | some clause => rfl

/-- What is embedded for a reference on the first level: the query for its class, one level
deeper. -/
theorem embed_innerAt (compiler : Compiler) (deep : 0 < compiler.maxDepth) (cls : EntityClass)
    (name text : List Char) :
    compiler.embed (compiler.innerAt Selector.simplify compiler.maxDepth cls) name
        (Text.trimEnd text) =
      (compiler.class? (String.ofList name)).map (fun target =>
        compiler.queryAt Selector.simplify (compiler.maxDepth - 1) target (Text.trim text)) := by
  obtain ⟨below, depth⟩ : ∃ below, compiler.maxDepth = below + 1 :=
    ⟨compiler.maxDepth - 1, by omega⟩
  rw [depth, embed, Nat.add_sub_cancel]
  cases compiler.class? (String.ofList name) with
  | none => rfl
  | some target =>
    simp only [Option.bind_some, innerAt, Option.map_some, queryAt_trim]
    rfl

variable (compiler : Compiler)

def referenceClause (query : List Char) : Option Clause :=
  (compiler.class? (String.ofList target.chars)).map (fun cls =>
    ⟨false, .subquery (String.ofList field.chars)
      (compiler.queryAt Selector.simplify (compiler.maxDepth - 1) cls (Text.trim query))⟩)

def referenceSelector (query : List Char) : Selector :=
  ({ kind := .allOf } : Selector).addAll (compiler.referenceClause field target query).toList

/-- The stages read a reference whole and leave a space. -/
theorem fill_reference (deep : 0 < compiler.maxDepth) (cls : EntityClass) (query : List Char) :
    compiler.fill (compiler.innerAt Selector.simplify compiler.maxDepth cls) .allOf []
        (referenceText field target query) =
      ([' '], compiler.referenceSelector field target query) := by
  have claims := claims_referenceText field target
    (compiler.embed (compiler.innerAt Selector.simplify compiler.maxDepth cls)) query
  rw [compiler.embed_innerAt deep, Option.map_map] at claims
  have nonempty : referenceText field target query ≠ [] := by
    rw [referenceText_eq]
    exact List.append_ne_nil_of_right_ne_nil _ (List.cons_ne_nil _ _)
  have filled := fill_alone claims nonempty (Eq.refl (List.all [] isBlank)) .allOf []
  rw [List.append_nil, List.filterMap_nil, Selector.nest_nil] at filled
  exact filled

theorem simplify_referenceSelector (query : List Char) :
    (compiler.referenceSelector field target query).simplify =
      compiler.referenceSelector field target query := by
  apply Selector.simplify_of_childless
  rw [referenceSelector, Selector.nested_addAll]

theorem referenceSelector_inj {first second : List Char} :
    compiler.referenceSelector field target first = compiler.referenceSelector field target second ↔
      compiler.referenceClause field target first =
        compiler.referenceClause field target second := by
  constructor
  · intro same
    have entries := congrArg (fun selector => selector.subqueries.positive) same
    simp only [referenceSelector, referenceClause] at entries ⊢
    cases registered : compiler.class? (String.ofList target.chars) with
    | none => rfl
    | some cls =>
      rw [registered] at entries
      have queries := (Prod.mk.inj (List.cons.inj entries).1).2
      rw [Option.map_some, Option.map_some, queries]
  · intro same
    rw [referenceSelector, referenceSelector, same]

/-- Compiling a text that is one reference: directives of the outer level are looked for in the body
too, and what they leave of the query is compiled for the class. The body is compiled as it stands,
and the outer query is left without options, just when the directives make no difference. -/
theorem compile_reference (cls : EntityClass) (query : List Char) (deep : 0 < compiler.maxDepth) :
    ∃ left,
      (Directive.extract (referenceText field target query) { className := cls.name }).1 =
          referenceText field target left ∧
        compiler.compile (String.ofList (referenceText field target query)) cls =
          ⟨(Directive.extract (referenceText field target query) { className := cls.name }).2,
            [compiler.referenceSelector field target left]⟩ ∧
        (compiler.compile (String.ofList (referenceText field target query)) cls =
            ⟨{ className := cls.name }, [compiler.referenceSelector field target query]⟩ ↔
          (Directive.extract (referenceText field target query) { className := cls.name }).2 =
              { className := cls.name } ∧
            compiler.referenceClause field target left =
              compiler.referenceClause field target query) ∧
        (Directive.extract (referenceText field target query) { className := cls.name } =
            (referenceText field target query, { className := cls.name }) →
          compiler.compile (String.ofList (referenceText field target query)) cls =
            ⟨{ className := cls.name }, [compiler.referenceSelector field target query]⟩) := by
  obtain ⟨left, remaining⟩ :=
    Directive.extract_reference field target query { className := cls.name }
  have filled := compiler.fill_reference field target deep cls left
  have silent : compiler.bareSelector cls [' '] = none := bareSelector_of_words compiler cls rfl
  have compiled : compiler.compile (String.ofList (referenceText field target query)) cls =
      ⟨(Directive.extract (referenceText field target query) { className := cls.name }).2,
        [compiler.referenceSelector field target left]⟩ := by
    simp only [compile, queryAt, queryWith, String.toList_ofList, split_reference, remaining,
      filled, silent, simplify_referenceSelector, Option.isSome_none, Bool.and_false,
      Bool.false_eq_true, ↓reduceIte, Option.toList_none, List.append_nil]
  refine ⟨left, remaining, compiled, ?_, ?_⟩
  · rw [compiled, Query.mk.injEq, List.cons.injEq, referenceSelector_inj]
    simp only [and_true]
  · intro untouched
    rw [untouched] at remaining
    rw [compiled, untouched, referenceText_injective field target remaining]

end Compiler

/-- The text `g<{Group limit:1 name=x}>`. -/
def referenceSample : List Char :=
  referenceText ⟨['g'], by decide, by decide⟩ ⟨"Group".toList, by decide, by decide⟩
    "limit:1 name=x".toList

theorem Directive.extract_referenceSample :
    (extract referenceSample { className := "User" }).2 =
      { className := "User", limit := some 1 } := by
  decide +kernel

/-- A limit in the body is taken by the outer query, so that the body is not compiled as it
stands. -/
theorem Compiler.compile_reference_limit :
    0 < ({ classes := [⟨"Group", []⟩] } : Compiler).maxDepth ∧
      (({ classes := [⟨"Group", []⟩] } : Compiler).compile (String.ofList referenceSample)
        ⟨"User", []⟩).options = { className := "User", limit := some 1 } ∧
      ({ classes := [⟨"Group", []⟩] } : Compiler).compile (String.ofList referenceSample)
          ⟨"User", []⟩ ≠
        ⟨{ className := "User" }, [({ classes := [⟨"Group", []⟩] } : Compiler).referenceSelector
          ⟨['g'], by decide, by decide⟩ ⟨"Group".toList, by decide, by decide⟩
          "limit:1 name=x".toList]⟩ := by
  have deep : 0 < ({ classes := [⟨"Group", []⟩] } : Compiler).maxDepth := by decide
  have described := compile_reference ⟨['g'], by decide, by decide⟩
    ⟨"Group".toList, by decide, by decide⟩ { classes := [⟨"Group", []⟩] } ⟨"User", []⟩
    "limit:1 name=x".toList deep
  rw [← referenceSample] at described
  obtain ⟨left, _, compiled, exact, _⟩ := described
  refine ⟨deep, ?_, ?_⟩
  · rw [compiled]
    exact Directive.extract_referenceSample
  · intro claimed
    have fresh := (exact.mp claimed).1
    rw [Directive.extract_referenceSample] at fresh
    cases fresh

end SelectorLang
