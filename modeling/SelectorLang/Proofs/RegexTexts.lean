import SelectorLang.Proofs.EscapedBodies
import SelectorLang.Proofs.LoneTokens
import SelectorLang.Proofs.Remainders
import SelectorLang.Selector.Equality

set_option autoImplicit false

namespace SelectorLang

namespace Clause

open Reader

def slashing : List Char → List Char
  | [] => []
  | c :: rest => if c == '/' then '\\' :: '/' :: slashing rest else c :: slashing rest

theorem slashing_slash (rest : List Char) : slashing ('/' :: rest) = '\\' :: '/' :: slashing rest :=
  rfl

theorem slashing_cons {c : Char} (other : c ≠ '/') (rest : List Char) :
    slashing (c :: rest) = c :: slashing rest := by
  simp only [slashing, beq_iff_eq, other, ↓reduceIte]

theorem unslashed_cons {c : Char} {rest : List Char} (other : c ≠ '\\' ∨ Stops (· == '/') rest) :
    unslashed (c :: rest) = c :: unslashed rest := by
  rw [unslashed]
  rintro others rfl rfl
  rcases other with same | stops
  · exact same rfl
  · cases stops '/' rfl

theorem stops_of_body {text : List Char} (units : Body (· == '/') text) :
    Stops (· == '/') text := by
  cases units with
  | nil => exact stops_nil _
  | pair => exact stops_cons rfl _
  | plain c rest _ inside _ => exact stops_cons_ne (beq_eq_false_iff_ne.mp inside) rest

end Clause

/-- A pattern: characters, and backslashes that each take a character along, which is no slash. -/
structure Pattern where
  chars : List Char
  nonempty : chars ≠ []
  units : Units (· ≠ '\\') (fun c => c ≠ '\n' ∧ c ≠ '/') chars

namespace Clause

open Reader

theorem body_slashing {text : List Char}
    (units : Units (· ≠ '\\') (fun c => c ≠ '\n' ∧ c ≠ '/') text) :
    Body (· == '/') (slashing text) := by
  induction units with
  | nil => exact .nil
  | pair c rest taken _ ih =>
    rw [slashing_cons (by decide), slashing_cons taken.2]
    exact .pair c _ taken.1 ih
  | plain c rest unescaped _ ih =>
    by_cases slash : c = '/'
    · rw [slash, slashing_slash]
      exact .pair '/' _ (by decide) ih
    · rw [slashing_cons slash]
      exact .plain c _ unescaped (beq_eq_false_iff_ne.mpr slash) ih

theorem unslashed_slashing {text : List Char}
    (units : Units (· ≠ '\\') (fun c => c ≠ '\n' ∧ c ≠ '/') text) :
    unslashed (slashing text) = text := by
  induction units with
  | nil => rfl
  | pair c rest taken units ih =>
    have behind := stops_of_body (body_slashing units)
    rw [slashing_cons (by decide), slashing_cons taken.2,
      unslashed_cons (Or.inr (stops_cons_ne taken.2 _)), unslashed_cons (Or.inr behind), ih]
  | plain c rest unescaped _ ih =>
    by_cases slash : c = '/'
    · rw [slash, slashing_slash, unslashed, ih]
    · rw [slashing_cons slash, unslashed_cons (Or.inl unescaped), ih]

theorem slashing_unslashed {body : List Char} (units : Body (· == '/') body) :
    slashing (unslashed body) = body := by
  induction units with
  | nil => rfl
  | pair c rest _ units ih =>
    by_cases slash : c = '/'
    · rw [slash, unslashed, slashing_slash, ih]
    · rw [unslashed_cons (Or.inr (stops_cons_ne slash _)),
        unslashed_cons (Or.inr (stops_of_body units)), slashing_cons (by decide),
        slashing_cons slash, ih]
  | plain c rest unescaped inside _ ih =>
    rw [unslashed_cons (Or.inl unescaped), slashing_cons (beq_eq_false_iff_ne.mp inside), ih]

variable (field : FieldName) (negated : Bool) (body : List Char) (folds : Bool)

def regexText : List Char :=
  field.chars ++ mark negated ++ '~' :: '/' :: (body ++ '/' :: if folds then ['i'] else [])

def regexClause (pattern : List Char) : Clause :=
  ⟨negated, if folds then .regexFold (String.ofList field.chars) (String.ofList pattern)
    else .regex (String.ofList field.chars) (String.ofList pattern)⟩

theorem family_regexClause (first second : List Char) :
    (regexClause field negated folds first).condition.family =
      (regexClause field negated folds second).condition.family := by
  cases folds <;> rfl

theorem pattern_of_condition {first second : List Char}
    (same : (regexClause field negated folds first).condition =
      (regexClause field negated folds second).condition) : first = second := by
  cases folds with
  | false => exact String.ofList_injective (Condition.regex.inj same).2
  | true => exact String.ofList_injective (Condition.regexFold.inj same).2

/-- Only the pattern is looked into for groups. -/
theorem split_regexText :
    split (regexText field negated body folds) =
      ⟨(split body).groups.map (Group.move (field.chars ++ mark negated ++ ['~', '/']).length),
        regexText field negated (split body).remainder folds⟩ := by
  have ordinary : ∀ c ∈ field.chars ++ mark negated ++ ['~', '/'], Scanner.isOrdinary c = true :=
    List.forall_mem_append.mpr
      ⟨Phrase.forall_lead field negated (fun _ => Scanner.isOrdinary_of_isFieldChar) rfl,
        List.all_eq_true.mp rfl⟩
  have silent : ∀ scanner offset,
      Paren.scanFrom scanner offset ('/' :: if folds then ['i'] else []) = [] := by
    intro scanner offset
    cases folds with
    | false => rw [Paren.scanFrom_hidden (Or.inr (by decide))]; rfl
    | true =>
      rw [Paren.scanFrom_hidden (Or.inr (by decide)), if_pos rfl,
        Paren.scanFrom_hidden (Or.inr (by decide))]
      rfl
  have text : ∀ inside, regexText field negated inside folds =
      (field.chars ++ mark negated ++ ['~', '/']) ++
        (inside ++ '/' :: if folds then ['i'] else []) := by
    intro inside
    simp only [regexText, List.append_assoc, List.cons_append, List.nil_append]
  rw [text, text, split_ordinary_append ordinary, split_append_silent (silent _ _)]

variable {body}

theorem regex_regexText (units : Body (· == '/') body) (nonempty : body ≠ []) :
    regex (regexText field negated body folds) =
      some (some (regexClause field negated folds (unslashed body)), []) := by
  have subject := target_append field negated (c := '~') rfl (by decide)
    ('/' :: (body ++ '/' :: if folds then ['i'] else []))
  have inside := slashed_append units nonempty (if folds then ['i'] else [])
  have folded : flag 'i' (if folds then ['i'] else []) = some (folds, []) := by
    cases folds <;> rfl
  simp only [regex, regexText, bind_apply, subject, exactly_singleton, inside, folded,
    Option.bind_some, pure_apply, onField, regexClause]

/-- Behind its field nothing begins inside the text, so what is not read there does not occur. -/
theorem not_occurs_regexText {α : Type} {reader : Reader α} (units : Body (· == '/') body)
    (nonempty : body ≠ []) (refuses : reader (regexText field negated body folds) = none) :
    ¬Token.Occurs reader (regexText field negated body folds) := by
  have reads := Literal.operand_slashed nonempty units folds (Eq.refl (Token.endsWord []))
  rw [List.append_nil] at reads
  exact Token.not_occurs_of_literal (Phrase.dark_lead field negated rfl)
    (silent_of_unquoted (Phrase.bare_lead field negated) (stops_cons_ne (by decide) _)) reads
    (Token.readAt_of_none refuses)

theorem extract_regexText (units : Body (· == '/') body) (nonempty : body ≠ [])
    (className : String) :
    Directive.extract (regexText field negated body folds) { className := className } =
      (regexText field negated body folds, { className := className }) := by
  apply Directive.extract_of_free
  apply Directive.free_of_colon
  intro α word wellFormed next
  exact not_occurs_regexText field negated folds units nonempty
    (Directive.unread_behind field negated wellFormed next rfl rfl _)

/-- No stage finds anything in the text before its own does. -/
theorem early_regexText (embed : List Char → List Char → Option Query)
    (units : Body (· == '/') body) (nonempty : body ≠ []) :
    ∀ pass ∈ ([⟨"qref", 0, subquery embed⟩, ⟨"equal", 0, equal⟩, ⟨"ref", 0, reference⟩,
      ⟨"contain", 0, contain⟩] : List Pass),
      Piece.tokens (pass.pieces (regexText field negated body folds)) = [] := by
  have unread : ∀ {sign : List Char} (next : String × Bool → Unit → Reader (Option Clause)),
      (∀ rest, sign.isPrefixOf ('~' :: rest) = false) →
      Piece.tokens (Token.scan (target >>= fun subject => exactly sign >>= next subject)
        (regexText field negated body folds)) = [] := by
    intro sign next other
    exact Token.tokens_of_not_occurs (not_occurs_regexText field negated folds units nonempty
      (unread_sign field negated rfl (by decide) (other _) next))
  refine List.forall_mem_cons.mpr ⟨unread _ (fun _ => rfl), ?_⟩
  refine List.forall_mem_cons.mpr ⟨unread _ (fun _ => rfl), ?_⟩
  refine List.forall_mem_cons.mpr ⟨unread _ (fun _ => rfl), ?_⟩
  exact List.forall_mem_singleton.mpr (unread _ (fun _ => rfl))

end Clause

namespace Selector

theorem simplify_beside (children : List Selector) (clause : Clause) :
    ((({ kind := .allOf } : Selector).nest children).addAll [clause]).simplify =
      (({ kind := .allOf } : Selector).nest children).addAll [clause] := by
  apply simplify_of_not_wraps
  rintro child ⟨only, _, count⟩
  rw [nested_addAll] at only
  have nested : 1 ≤ (({ kind := .allOf } : Selector).nest children).nested.size := by
    rw [Signed.size, only]
    exact Nat.le_add_right 1 _
  rw [clauseCount_addAll, clauseCount, List.length_singleton] at count
  omega

theorem condition_of_beside {children others : List Selector} {first second : Clause}
    (family : first.condition.family = second.condition.family)
    (sign : first.negated = second.negated)
    (same : (({ kind := .allOf } : Selector).nest children).addAll [first] =
      (({ kind := .allOf } : Selector).nest others).addAll [second]) :
    first.condition = second.condition := by
  have lists := congrArg (fun selector => selector.listed first.condition.family first.negated) same
  simp only [addAll_cons, addAll_nil] at lists
  rw [listed_add_own, family, sign, listed_add_own, listed_nest, listed_nest, if_pos rfl,
    if_pos rfl] at lists
  exact (List.cons.inj lists).1

end Selector

namespace Compiler

open Clause

/-- The groups in a regular expression are compiled, and its own clause is read from the rest. -/
theorem compile_body (compiler : Compiler) (cls : EntityClass) (field : FieldName) (negated : Bool)
    {body : List Char} (units : Body (· == '/') body) (nonempty : body ≠ []) (folds : Bool) :
    compiler.compile (String.ofList (regexText field negated body folds)) cls =
      ⟨{ className := cls.name },
        [(({ kind := .allOf } : Selector).nest
            ((split (regexText field negated body folds)).groups.filterMap
              (compiler.innerAt Selector.simplify compiler.maxDepth cls).group)).addAll
          [regexClause field negated folds (unslashed (split body).remainder)]]⟩ := by
  have kept : Body (· == '/') (split body).remainder := units.remainder rfl
  have some := remainder_ne_nil nonempty
  have left : (split (regexText field negated body folds)).remainder =
      regexText field negated (split body).remainder folds := by
    rw [split_regexText]
  have free := extract_regexText field negated folds kept some cls.name
  have read := regex_regexText field negated folds kept some
  have full := Phrase.lead_ne_nil field negated
    ('~' :: '/' :: ((split body).remainder ++ '/' :: if folds then ['i'] else []))
  rw [← regexText, ← left] at full
  have absent := early_regexText field negated folds
    (compiler.embed (compiler.innerAt Selector.simplify compiler.maxDepth cls)) kept some
  rw [← left] at free absent read
  have order : Stage.placed (Stage.all
      (compiler.embed (compiler.innerAt Selector.simplify compiler.maxDepth cls))) =
        [⟨"qref", 0, subquery _⟩, ⟨"equal", 0, equal⟩, ⟨"ref", 0, reference⟩,
          ⟨"contain", 0, contain⟩] ++ ⟨"match", 0, regex⟩ ::
            (Stage.placed (Stage.all (compiler.embed
              (compiler.innerAt Selector.simplify compiler.maxDepth cls)))).drop 5 := rfl
  rw [compiler.compile_of_read cls order free absent full read, Option.toList_some,
    Selector.simplify_beside]

/-- The text of a pattern compiles to the groups that are found in the pattern, beside the clause
for what is left of it. So it says the pattern and nothing else just where no group is found
there. -/
theorem compile_pattern (compiler : Compiler) (cls : EntityClass) (field : FieldName)
    (negated : Bool) (pattern : Pattern) (folds : Bool) :
    compiler.compile (String.ofList (regexText field negated (slashing pattern.chars) folds)) cls =
        ⟨{ className := cls.name },
          [(({ kind := .allOf } : Selector).nest
              ((split (regexText field negated (slashing pattern.chars) folds)).groups.filterMap
                (compiler.innerAt Selector.simplify compiler.maxDepth cls).group)).addAll
            [regexClause field negated folds
              (unslashed (split (slashing pattern.chars)).remainder)]]⟩ ∧
      (compiler.compile (String.ofList (regexText field negated (slashing pattern.chars) folds))
          cls =
          ⟨{ className := cls.name },
            [({ kind := .allOf } : Selector).addAll
              [regexClause field negated folds pattern.chars]]⟩ ↔
        (split (slashing pattern.chars)).groups = []) := by
  have units := body_slashing pattern.units
  have written := unslashed_slashing pattern.units
  have nonempty : slashing pattern.chars ≠ [] := by
    intro empty
    rw [empty] at written
    exact pattern.nonempty written.symm
  have compiled := compiler.compile_body cls field negated units nonempty folds
  refine ⟨compiled, ?_⟩
  rw [compiled]
  constructor
  · intro claimed
    have kept : Body (· == '/') (split (slashing pattern.chars)).remainder := units.remainder rfl
    have selectors := (List.cons.inj (Query.mk.inj claimed).2).1
    have alone := Selector.nest_nil ({ kind := .allOf } : Selector)
    conv at selectors => rhs; rw [← alone]
    have same : unslashed (split (slashing pattern.chars)).remainder = pattern.chars :=
      pattern_of_condition field negated folds
        (Selector.condition_of_beside (family_regexClause field negated folds _ _) rfl selectors)
    apply (remainder_eq_iff _).mp
    rw [← slashing_unslashed kept, same]
  · intro none
    have whole := (remainder_eq_iff _).mpr none
    rw [split_regexText, none, whole, written]
    rfl

def groupPattern : Pattern where
  chars := ['(', 'a', ')']
  nonempty := List.cons_ne_nil '(' ['a', ')']
  units := .plain '(' _ (by decide) (.plain 'a' _ (by decide) (.plain ')' _ (by decide) .nil))

def keyField : FieldName := ⟨['k', 'e', 'y'], List.cons_ne_nil 'k' ['e', 'y'], rfl⟩

/-- The text `key~/(a)/` asks for a blank in the field and looks for `a` in the names. -/
theorem compile_pattern_grouped :
    ({} : Compiler).compile
        (String.ofList (regexText keyField false (slashing groupPattern.chars) false))
        ⟨"User", []⟩ =
      ⟨{ className := "User" },
        [{ kind := .allOf, clauses := { regex := ⟨[("key", " ")], []⟩ },
           nested :=
             ⟨[{ kind := .anyOf, clauses := { likeFold := ⟨[("name", "%a%")], []⟩ } }], []⟩ }]⟩ ∧
    ({} : Compiler).compile
        (String.ofList (regexText keyField false (slashing groupPattern.chars) false))
        ⟨"User", []⟩ ≠
      ⟨{ className := "User" }, [({ kind := .allOf } : Selector).addAll
        [regexClause keyField false false groupPattern.chars]]⟩ := by
  have described := compile_pattern {} ⟨"User", []⟩ keyField false groupPattern false
  refine ⟨described.1.trans (by decide +kernel), fun claimed => ?_⟩
  exact absurd (described.2.mp claimed) (by decide +kernel)

end Compiler

end SelectorLang
