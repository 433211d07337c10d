import SelectorLang.Proofs.LoneTokens
import SelectorLang.Proofs.Rounding

set_option autoImplicit false

namespace SelectorLang

namespace Clause

open Reader

variable (relation : Relation) (field : FieldName) (negated : Bool) (operand : List Char)

def orderText : List Char := field.chars ++ mark negated ++ relation.sign ++ operand

/-- The operand does not go on with the sign in front of it, nor does it close the bracket that the
sign may be. -/
structure Fits (relation : Relation) (operand : List Char) : Prop where
  begins : relation = .greater ∨ relation = .less → operand.head? ≠ some '='
  unclosed : relation = .less ∨ relation = .lessEq → '>' ∉ operand

theorem sign_parts : ∃ init last, relation.sign = init ++ [last] ∧
    (∀ c ∈ init, isBare c = true) ∧ Literal.isOperator last = true := by
  cases relation with
  | greater => exact ⟨[], '>', rfl, nofun, rfl⟩
  | greaterEq => exact ⟨['>'], '=', rfl, List.all_eq_true.mp rfl, rfl⟩
  | less => exact ⟨[], '<', rfl, nofun, rfl⟩
  | lessEq => exact ⟨['<'], '=', rfl, List.all_eq_true.mp rfl, rfl⟩

theorem sign_cons : ∃ first others, relation.sign = first :: others ∧
    isFieldChar first = false ∧ first ≠ '!' ∧ (first == ':') = false ∧
      (first = '>' ∨ first = '<' ∧ (relation = .less ∨ relation = .lessEq)) := by
  cases relation <;> exact ⟨_, _, rfl, rfl, by decide, rfl, by decide⟩

theorem dark_sign : ∀ c ∈ relation.sign, isBlank c = false := by
  obtain ⟨init, last, sign, bare, operator⟩ := sign_parts relation
  rw [sign]
  exact List.forall_mem_append.mpr ⟨fun c member => (isBare_iff.mp (bare c member)).1,
    List.forall_mem_singleton.mpr
      (@Reader.refused_of_accepted _ _ (fun _ => Literal.isOperator_of_blank) last operator)⟩

variable {relation operand}

/-- What a reader of clauses on a field makes of a comparison. -/
theorem target_orderText {α : Type} (next : String × Bool → Reader α) :
    (target >>= next) (orderText relation field negated operand) =
      next (String.ofList field.chars, negated) (relation.sign ++ operand) := by
  obtain ⟨first, others, sign, outside, unmarked, _⟩ := sign_cons relation
  rw [orderText, List.append_assoc, sign, List.cons_append]
  exact bind_of_some _ (target_append field negated outside unmarked (others ++ operand))

theorem unread_sign_orderText {first : Char} (other : first ≠ '<' ∧ first ≠ '>')
    {others : List Char} {α : Type} (next : String × Bool → Unit → Reader α) :
    (target >>= fun subject => exactly (first :: others) >>= next subject)
      (orderText relation field negated operand) = none := by
  rw [target_orderText]
  apply bind_of_none
  cases relation with
  | greater => exact exactly_of_ne other.2 _ _
  | greaterEq => exact exactly_of_ne other.2 _ _
  | less => exact exactly_of_ne other.1 _ _
  | lessEq => exact exactly_of_ne other.1 _ _

theorem unread_bracket_orderText {first : Char} (outside : isFieldChar first = false)
    {others : List Char} {α : Type} (next : Unit → Reader α) :
    (exactly (first :: others) >>= next) (orderText relation field negated operand) = none := by
  simp only [orderText, List.append_assoc]
  exact bind_of_none _ (exactly_of_field outside others field _)

/-- What stands between angle brackets does not begin with a bracket to the right, and is closed by
one. -/
theorem unread_angle_orderText (fits : Fits relation operand) {others : List Char} {α : Type}
    {next : String × Bool → Unit → Reader α}
    (needs : ∀ subject found rest, '>' ∉ rest → next subject found rest = none) :
    (target >>= fun subject => exactly ('<' :: others) >>= next subject)
      (orderText relation field negated operand) = none := by
  have closed : relation = .less ∨ relation = .lessEq → '>' ∉ relation.sign ++ operand := by
    rintro below member
    rcases List.mem_append.mp member with sign | inside
    · rcases below with rfl | rfl <;> exact absurd sign (by decide)
    · exact fits.unclosed below inside
  rw [target_orderText]
  cases relation with
  | greater => exact bind_of_none _ (exactly_of_ne (by decide) _ _)
  | greaterEq => exact bind_of_none _ (exactly_of_ne (by decide) _ _)
  | less => exact needs_bind (takes_exactly _).front (needs _) _ (closed (Or.inl rfl))
  | lessEq => exact needs_bind (takes_exactly _).front (needs _) _ (closed (Or.inr rfl))

/-- The sign of one relation behind a field is none of another's, except that it may begin with
it. -/
theorem sign_of_other (fits : Fits relation operand) {other : Relation}
    (differs : other ≠ relation) :
    exactly other.sign (relation.sign ++ operand) = none ∨
      (other = .greater ∨ other = .less) ∧
        exactly other.sign (relation.sign ++ operand) = some ((), '=' :: operand) := by
  have begins : relation = .greater ∨ relation = .less → Stops (· == '=') operand := by
    intro strict c first
    rw [beq_eq_false_iff_ne]
    rintro rfl
    exact fits.begins strict first
  cases relation <;> cases other <;> first
    | exact absurd rfl differs
    | exact Or.inl rfl
    | exact Or.inr ⟨Or.inl rfl, rfl⟩
    | exact Or.inr ⟨Or.inr rfl, rfl⟩
    | exact Or.inl ((exactly_cons _ _ _).trans (exactly_of_stops (begins (Or.inl rfl))))
    | exact Or.inl ((exactly_cons _ _ _).trans (exactly_of_stops (begins (Or.inr rfl))))

/-- A relation reads nothing behind its sign where the sign goes on. -/
theorem unread_order_orderText (fits : Fits relation operand) {other : Relation}
    (differs : other ≠ relation) {next : String × Bool → Unit → Reader (Option Clause)}
    (refuses : other = .greater ∨ other = .less →
      ∀ subject found, next subject found ('=' :: operand) = none) :
    (target >>= fun subject => exactly other.sign >>= next subject)
      (orderText relation field negated operand) = none := by
  rw [target_orderText]
  rcases sign_of_other fits differs with none | ⟨strict, read⟩
  · exact bind_of_none _ none
  · rw [bind_of_some _ read]
    exact refuses strict _ _

/-- Only the passes of its own stage read a comparison. -/
theorem unread_orderText (fits : Fits relation operand)
    (embed : List Char → List Char → Option Query) :
    ∀ pass ∈ Stage.placed (Stage.all embed), pass.stage ≠ relation.stage →
      pass.reader (orderText relation field negated operand) = none := by
  have closing : ∀ {α : Type} (word : List Char) (next : Unit → Reader α), '>' ∈ word →
      ∀ rest, '>' ∉ rest → (exactly word >>= next) rest = none :=
    fun word next last rest absent => bind_of_none _ (exactly_of_not_mem last absent)
  apply Stage.forall_placed
  · intro _
    exact unread_angle_orderText field negated fits (fun _ _ => needs_bind
      (takes_escapedRun1 _).front (fun _ => closing ['\x7d', '>'] _ (by decide)))
  · intro _
    exact unread_sign_orderText field negated (by decide) _
  · intro _
    exact unread_angle_orderText field negated fits (fun _ _ => needs_bind
      takes_identifier.front (fun _ => closing ['\x7d', '>'] _ (by decide)))
  · intro _
    exact unread_angle_orderText field negated fits (fun _ _ => needs_bind
      (takes_escapedRun1 _).front (fun _ => closing ['>'] _ (by decide)))
  · intro _
    exact unread_sign_orderText field negated (by decide) _
  · intro _
    exact unread_sign_orderText field negated (by decide) _
  · intro _
    exact unread_bracket_orderText field negated rfl _
  · intro _
    exact unread_bracket_orderText field negated rfl _
  · intro _
    exact unread_bracket_orderText field negated rfl _
  · intro other stage
    apply unread_order_orderText field negated fits
      (fun same => stage (congrArg Relation.stage same))
    intro _ _ _
    exact bind_of_none _ (numeral_of_sign (by decide) rfl operand)
  · intro other stage
    apply unread_order_orderText field negated fits
      (fun same => stage (congrArg Relation.stage same))
    intro strict _ _
    have starts : other.startsOperand '=' = false := by
      rcases strict with rfl | rfl <;> rfl
    apply bind_of_none
    rw [orElse_apply, bind_of_none _ (quoted1_of_stops (stops_cons_ne (by decide) operand)),
      bind_of_none _ (plainOperand_of_refused starts operand)]
    rfl

theorem absolute_orderText (operand : List Char) :
    absolute relation (orderText relation field negated operand) =
      (numeral operand).map (fun read => ((Number.ofOperand? read.1).map (fun number =>
        ⟨negated, .compare relation (.absolute (String.ofList field.chars) number)⟩), read.2)) := by
  have signed : ∀ {α : Type} (next : Unit → Reader α),
      (exactly relation.sign >>= next) (relation.sign ++ operand) = next () operand :=
    fun next => bind_of_some next (exactly_append relation.sign operand)
  rw [absolute, target_orderText]
  simp only [signed]
  cases numbered : numeral operand with
  | none => exact bind_of_none _ numbered
  | some read => exact bind_of_some _ numbered

theorem dark_orderText (dark : ∀ c ∈ operand, isBlank c = false) :
    ∀ c ∈ orderText relation field negated operand, isBlank c = false := by
  have lead := Phrase.forall_lead field negated (fun _ => isBlank_of_isFieldChar) rfl
  exact List.forall_mem_append.mpr
    ⟨List.forall_mem_append.mpr ⟨lead, dark_sign relation⟩, dark⟩

/-- Only a numeral is read as a number: a token ends where its word ends. -/
theorem unread_absolute_orderText (dark : ∀ c ∈ operand, isBlank c = false)
    (other : ∀ numeral, PlainNumeral numeral → operand ≠ numeralText numeral) :
    Token.readAt (absolute relation) (orderText relation field negated operand) = none := by
  cases found : Token.readAt (absolute relation) (orderText relation field negated operand) with
  | none => rfl
  | some token =>
    obtain ⟨lexeme, after, parts, _, _, _, ends, read⟩ :=
      Token.lexeme_of_readAt (takes_absolute relation).front found
    have last : after = [] := by
      cases after with
      | nil => rfl
      | cons c rest =>
        have own := dark_orderText field negated dark c
          (parts ▸ List.mem_append_right lexeme List.mem_cons_self)
        rw [Token.endsWord, own] at ends
        cases ends
    rw [last, absolute_orderText, Option.map_eq_some_iff] at read
    obtain ⟨⟨numeral, left⟩, numbered, answered⟩ := read
    obtain ⟨_, spelled, rfl, plain⟩ := takes_numeral operand numeral left numbered
    have ended : left = [] := congrArg Prod.snd answered
    rw [ended, List.append_nil] at spelled
    exact absurd spelled (other numeral plain)

/-- An operand without quotes is an expression as it stands. -/
theorem relative_orderText (nonempty : operand ≠ []) (fits : Fits relation operand)
    (dark : ∀ c ∈ operand, isBlank c = false) (unquoted : '"' ∉ operand) :
    relative relation (orderText relation field negated operand) =
      some (some ⟨negated, .compare relation
        (.relative (String.ofList field.chars) (String.ofList operand))⟩, []) := by
  obtain ⟨first, others, rfl⟩ := List.exists_cons_of_ne_nil nonempty
  have plain : first ≠ '"' := by
    rintro rfl
    exact unquoted List.mem_cons_self
  have starts : relation.startsOperand first = true := by
    cases relation with
    | greater => exact bne_iff_ne.mpr (fun same => fits.begins (Or.inl rfl) (congrArg some same))
    | greaterEq => rfl
    | less => exact bne_iff_ne.mpr (fun same => fits.begins (Or.inr rfl) (congrArg some same))
    | lessEq => rfl
  have read := plainOperand_of_dark relation.startsOperand starts plain dark
  have unread := quoted1_of_stops (stops_cons_ne plain others)
  rw [relative, target_orderText, bind_of_some _ (exactly_append relation.sign (first :: others))]
  simp only [bind_apply, orElse_apply, unread, read, Option.bind_none, Option.none_or,
    Option.bind_some, pure_apply, onField]

theorem unread_absolute_quoted (chars : List Char) :
    Token.readAt (absolute relation) (orderText relation field negated (quotedText chars)) =
      none := by
  have unread : numeral (quotedText chars) = none := numeral_of_sign (by decide) rfl _
  apply Token.readAt_of_none
  rw [absolute_orderText, unread]
  rfl

/-- A quoted operand is an expression, whatever it holds. -/
theorem relative_quoted {chars : List Char} (nonempty : chars ≠ []) :
    relative relation (orderText relation field negated (quotedText chars)) =
      some (some ⟨negated, .compare relation
        (.relative (String.ofList field.chars) (String.ofList chars))⟩, []) := by
  have read := quoted1_append (body_quotedText chars)
    (LiteralKind.quote.escape_ne_nil nonempty) []
  rw [relative, target_orderText, bind_of_some _ (exactly_append relation.sign (quotedText chars)),
    quotedText]
  simp only [bind_apply, orElse_apply, read, Option.bind_some, Option.some_or, pure_apply, onField,
    unquoted, LiteralKind.unescape_escape]

/-- The pass for numbers stands in front of the one for expressions, and in front of both only other
stages. -/
theorem exists_order (embed : List Char → List Char → Option Query) (relation : Relation) :
    ∃ early late, Stage.placed (Stage.all embed) =
        early ++ ⟨relation.stage, 0, absolute relation⟩ ::
          ⟨relation.stage, 1, relative relation⟩ :: late ∧
      ∀ pass ∈ early, pass.stage ≠ relation.stage := by
  have names : (Stage.placed (Stage.all embed)).map (·.stage) =
      ["qref", "equal", "ref", "contain", "match", "like", "guid", "truthy", "tag", "gt", "gt",
        "gte", "gte", "lt", "lt", "lte", "lte"] := rfl
  have apart :
      ∀ count, relation.stage ∉ ((Stage.placed (Stage.all embed)).map (·.stage)).take count →
      ∀ pass ∈ (Stage.placed (Stage.all embed)).take count, pass.stage ≠ relation.stage := by
    intro count absent pass member same
    rw [← List.map_take, ← same] at absent
    exact absent (List.mem_map_of_mem member)
  rw [names] at apart
  cases relation with
  | greater => exact ⟨(Stage.placed (Stage.all embed)).take 9, _, rfl, apart 9 (by decide)⟩
  | greaterEq => exact ⟨(Stage.placed (Stage.all embed)).take 11, _, rfl, apart 11 (by decide)⟩
  | less => exact ⟨(Stage.placed (Stage.all embed)).take 13, _, rfl, apart 13 (by decide)⟩
  | lessEq => exact ⟨(Stage.placed (Stage.all embed)).take 15, _, rfl, apart 15 (by decide)⟩

def clauseQuery (cls : EntityClass) (clauses : List Clause) : Query :=
  ⟨{ className := cls.name }, [({ kind := .allOf } : Selector).addAll clauses]⟩

/-- A comparison in a text of one token is what the first of its two passes to read it says. -/
theorem compile_orderText (compiler : Compiler) (cls : EntityClass) (fits : Fits relation operand)
    (groupless : (split (orderText relation field negated operand)).groups = [])
    (lone : ∀ {α : Type} {reader : Reader α},
      Token.readAt reader (orderText relation field negated operand) = none →
        ¬Token.Occurs reader (orderText relation field negated operand)) {said : Option Clause}
    (read : absolute relation (orderText relation field negated operand) = some (said, []) ∨
      Token.readAt (absolute relation) (orderText relation field negated operand) = none ∧
        relative relation (orderText relation field negated operand) = some (said, [])) :
    compiler.compile (String.ofList (orderText relation field negated operand)) cls =
      clauseQuery cls said.toList := by
  obtain ⟨first, others, sign, outside, _, other, _⟩ := sign_cons relation
  have shape : orderText relation field negated operand =
      field.chars ++ mark negated ++ first :: (others ++ operand) := by
    rw [orderText, List.append_assoc, sign, List.cons_append]
  have nonempty : orderText relation field negated operand ≠ [] := by
    rw [shape]
    exact Phrase.lead_ne_nil field negated _
  have free : Directive.Free (orderText relation field negated operand) := by
    apply Directive.free_of_colon
    intro α word wellFormed next
    apply lone
    rw [shape]
    exact Token.readAt_of_none
      (Directive.unread_behind field negated wellFormed next outside other _)
  obtain ⟨early, late, order, foreign⟩ := exists_order (compiler.embed
    (compiler.innerAt Selector.simplify compiler.maxDepth cls)) relation
  have absent : ∀ pass ∈ early,
      Piece.tokens (pass.pieces (orderText relation field negated operand)) = [] := by
    intro pass member
    apply Token.tokens_of_not_occurs
    apply lone
    have placed := order ▸ List.mem_append_left _ member
    exact Token.readAt_of_none (unread_orderText field negated fits _ pass placed
      (foreign pass member))
  rcases read with number | ⟨unread, expression⟩
  · exact compiler.compile_of_whole cls groupless (Directive.extract_of_free free _) nonempty order
      absent number
  · have between : early ++ ⟨relation.stage, 0, absolute relation⟩ ::
        ⟨relation.stage, 1, relative relation⟩ :: late =
          (early ++ [⟨relation.stage, 0, absolute relation⟩]) ++
            ⟨relation.stage, 1, relative relation⟩ :: late := by simp
    rw [between] at order
    refine compiler.compile_of_whole cls groupless (Directive.extract_of_free free _) nonempty order
      ?_ expression
    refine List.forall_mem_append.mpr ⟨absent, List.forall_mem_singleton.mpr ?_⟩
    exact Token.tokens_of_not_occurs (lone unread)

end Clause

namespace Number.Numeral

/-- The number that a numeral of ASCII digits without an exponent stands for in a comparison, if it
stands for one. -/
inductive Denotes (numeral : Numeral) : Option Number → Prop
  /-- A whole number that fits 64 bits with a sign is exact. -/
  | whole (value : Int) (spelled : numeral.toInt? = some value)
    (signed : -0x8000_0000_0000_0000 ≤ value ∧ value < 0x8000_0000_0000_0000) :
    Denotes numeral (some (.whole value (fits_of_signed signed)))
  /-- Any other number is the double nearest to it. -/
  | double (large : ∀ value, numeral.toInt? = some value →
      ¬(-0x8000_0000_0000_0000 ≤ value ∧ value < 0x8000_0000_0000_0000)) (value : Double)
    (nearest : numeral.toDouble? = some value) : Denotes numeral (some (.double value))
  /-- What is too large for a double is no number. -/
  | infinite (overflows : numeral.Overflows) : Denotes numeral none

theorem denotes_iff {numeral : Numeral}
    (ascii : (numeral.wholeDigits ++ numeral.fractionDigits.getD []).all Char.isDigit = true)
    (plain : numeral.exponent = none) (number : Option Number) :
    numeral.Denotes number ↔ ofOperand? numeral = number := by
  constructor
  · intro denotes
    cases denotes with
    | whole value spelled signed => exact ofOperand?_of_signed ascii spelled signed
    | double large value nearest => rw [ofOperand?_of_large ascii large, nearest, Option.map_some]
    | infinite overflows =>
      rw [ofOperand?_of_large ascii, (toDouble?_eq_none_iff plain).mpr overflows, Option.map_none]
      intro value spelled signed
      exact not_overflows_of_signed spelled signed overflows
  · rintro rfl
    by_cases signed : ∃ value, numeral.toInt? = some value ∧
        -0x8000_0000_0000_0000 ≤ value ∧ value < 0x8000_0000_0000_0000
    · obtain ⟨value, spelled, range⟩ := signed
      rw [ofOperand?_of_signed ascii spelled range]
      exact .whole value spelled range
    · have large : ∀ value, numeral.toInt? = some value →
          ¬(-0x8000_0000_0000_0000 ≤ value ∧ value < 0x8000_0000_0000_0000) :=
        fun value spelled range => signed ⟨value, spelled, range⟩
      rw [ofOperand?_of_large ascii large]
      cases rounded : numeral.toDouble? with
      | none => exact .infinite ((toDouble?_eq_none_iff plain).mp rounded)
      | some value => exact .double large value rounded

end Number.Numeral

namespace Clause

/-- A character of operands without quotes: printable ASCII that has no meaning where it is. -/
def isOperandChar (c : Char) : Bool :=
  0x21 ≤ c.toNat && c.toNat ≤ 0x7e && c ∉ ['"', '(', ')', '\\', '<', '>']

theorem isOperandChar_iff {c : Char} :
    isOperandChar c = true ↔
      (0x21 ≤ c.toNat ∧ c.toNat ≤ 0x7e) ∧ c ∉ ['"', '(', ')', '\\', '<', '>'] := by
  simp only [isOperandChar, Bool.and_eq_true, decide_eq_true_eq]

structure BareOperand (relation : Relation) (operand : List Char) : Prop where
  nonempty : operand ≠ []
  wellFormed : operand.all isOperandChar = true
  /-- The operand does not go on with the sign in front of it. -/
  begins : relation = .greater ∨ relation = .less → operand.head? ≠ some '='

namespace BareOperand

variable {relation : Relation} {operand : List Char} (bare : BareOperand relation operand)

include bare

theorem printable : ∀ c ∈ operand, 0x21 ≤ c.toNat ∧ c.toNat ≤ 0x7e :=
  fun c member => (isOperandChar_iff.mp (List.all_eq_true.mp bare.wellFormed c member)).1

theorem plain : ∀ c ∈ operand, c ∉ ['"', '(', ')', '\\', '<', '>'] :=
  fun c member => (isOperandChar_iff.mp (List.all_eq_true.mp bare.wellFormed c member)).2

theorem fits : Fits relation operand where
  begins := bare.begins
  unclosed := fun _ member => bare.plain '>' member (by decide)

theorem dark : ∀ c ∈ operand, isBlank c = false := by
  intro c member
  have range := bare.printable c member
  have low : c.toNat < 0x80 := by omega
  simp only [isBlank, low, ↓reduceIte, Bool.or_eq_false_iff, Bool.and_eq_false_iff,
    decide_eq_false_iff_not, beq_eq_false_iff_ne]
  omega

theorem isDigit_of_numeral {numeral : Number.Numeral} (plain : PlainNumeral numeral)
    (spells : operand = numeralText numeral) :
    (numeral.wholeDigits ++ numeral.fractionDigits.getD []).all Char.isDigit = true := by
  have ascii : ∀ c ∈ operand, isDecimalDigit c = true → c.isDigit = true := by
    intro c member digit
    have range := bare.printable c member
    have low : c.toNat < 0x80 := by omega
    rwa [isDecimalDigit, if_pos low] at digit
  rw [spells] at ascii
  apply List.all_eq_true.mpr
  refine List.forall_mem_append.mpr ⟨?_, ?_⟩
  · intro c member
    exact ascii c (List.mem_append_left _ (List.mem_append_right _ member))
      (List.all_eq_true.mp plain.whole.2 c member)
  · intro c member
    cases fraction : numeral.fractionDigits with
    | none =>
      rw [fraction] at member
      cases member
    | some digits =>
      rw [fraction, Option.getD_some] at member
      refine ascii c (List.mem_append_right _ ?_)
        (List.all_eq_true.mp (plain.fraction digits fraction).2 c member)
      rw [fraction, fractionText]
      exact List.mem_cons_of_mem '.' member

theorem groups_orderText (field : FieldName) (negated : Bool) :
    (split (orderText relation field negated operand)).groups = [] := by
  have lead : '(' ∉ field.chars ++ mark negated := Phrase.not_mem_lead field negated rfl (by decide)
  have sign : '(' ∉ relation.sign := by cases relation <;> decide
  have own : '(' ∉ operand := fun member => bare.plain '(' member (by decide)
  apply groups_of_not_mem
  rw [orderText, List.mem_append, List.mem_append, not_or, not_or]
  exact ⟨⟨lead, sign⟩, own⟩

/-- A comparison with an operand without quotes is what its passes say about it. -/
theorem compile_eq (compiler : Compiler) (cls : EntityClass) (field : FieldName) (negated : Bool)
    {said : Option Clause}
    (read : absolute relation (orderText relation field negated operand) = some (said, []) ∨
      Token.readAt (absolute relation) (orderText relation field negated operand) = none ∧
        relative relation (orderText relation field negated operand) = some (said, [])) :
    compiler.compile (String.ofList (orderText relation field negated operand)) cls =
      clauseQuery cls said.toList :=
  compile_orderText field negated compiler cls bare.fits (bare.groups_orderText field negated)
    (Token.not_occurs_of_front (dark_orderText field negated bare.dark)) read

end BareOperand

section

variable (relation : Relation) (field : FieldName) (negated : Bool) (chars : List Char)

theorem fits_quoted {chars : List Char}
    (unclosed : relation = .less ∨ relation = .lessEq → '>' ∉ chars) :
    Fits relation (quotedText chars) where
  begins := by
    intro _
    exact nofun
  unclosed := by
    intro below
    have own : ∀ c ∈ chars, c ≠ '>' := by
      rintro c member rfl
      exact unclosed below member
    have escaped : ∀ c ∈ LiteralKind.quote.escape chars, c ≠ '>' :=
      LiteralKind.quote.forall_escape (by decide) own
    intro member
    rcases List.mem_cons.mp member with quote | inside
    · exact absurd quote (by decide)
    · rcases List.mem_append.mp inside with body | last
      · exact escaped '>' body rfl
      · exact absurd last (by decide)

theorem groups_quoted :
    (split (orderText relation field negated (quotedText chars))).groups = [] := by
  have units := body_quotedText chars
  have behind : ∀ angle, Scanner.Hides ⟨.plain, false, angle⟩ (quotedText chars) {} :=
    fun angle => Scanner.hides_quoted units angle (.nil {})
  have operand : Scanner.Hides {} (relation.sign ++ quotedText chars) {} := by
    cases relation with
    | greater => exact .ordinary rfl (behind false)
    | greaterEq => exact .ordinary rfl (.ordinary rfl (behind false))
    | less => exact .cons (Or.inr (by decide)) rfl (behind true)
    | lessEq => exact .cons (Or.inr (by decide)) rfl (.ordinary rfl (behind false))
  have lead := Scanner.hides_ordinary (Phrase.forall_lead field negated
    (fun _ => Scanner.isOrdinary_of_isFieldChar) rfl)
  have hides := lead.append operand
  rw [← List.append_assoc] at hides
  rw [orderText, Scanner.split_of_hides hides]

/-- Only at its front a token is read in a comparison with a quoted operand. -/
theorem not_occurs_quoted {α : Type} {reader : Reader α}
    (unread : Token.readAt reader (orderText relation field negated (quotedText chars)) = none) :
    ¬Token.Occurs reader (orderText relation field negated (quotedText chars)) := by
  obtain ⟨init, last, sign, bare, operator⟩ := sign_parts relation
  have shape : orderText relation field negated (quotedText chars) =
      (field.chars ++ mark negated ++ init) ++ last :: quotedText chars := by
    simp only [orderText, sign, List.append_assoc, List.cons_append, List.nil_append]
  have front : ∀ c ∈ field.chars ++ mark negated ++ init, isBare c = true :=
    List.forall_mem_append.mpr ⟨Phrase.bare_lead field negated, bare⟩
  have dark : ∀ c ∈ field.chars ++ mark negated ++ init ++ [last], isBlank c = false := by
    rw [List.append_assoc, ← sign]
    exact List.forall_mem_append.mpr
      ⟨Phrase.forall_lead field negated (fun _ => isBlank_of_isFieldChar) rfl, dark_sign relation⟩
  have silent : Literal.Silent (field.chars ++ mark negated ++ init) (last :: quotedText chars) :=
    silent_of_unquoted front (Reader.stops_cons_ne (Reader.ne_of_accepted operator rfl) _)
  have reads := operand_quoted operator (body_quotedText chars) List.mem_cons_self
    (Eq.refl (Token.endsWord []))
  rw [shape] at unread ⊢
  exact Token.not_occurs_of_literal dark silent reads unread

end

end Clause

namespace Compiler

open Clause

/-- The query with nothing but a comparison at most, which is in the list of its relation and its
sign. -/
def comparisonQuery (cls : EntityClass) (relation : Relation) (negated : Bool)
    (said : Option Comparison) : Query :=
  let own : Signed Comparison := if negated then ⟨[], said.toList⟩ else ⟨said.toList, []⟩
  ⟨{ className := cls.name },
    [{ kind := .allOf
       clauses :=
        { greater := if relation = .greater then own else {}
          greaterEq := if relation = .greaterEq then own else {}
          less := if relation = .less then own else {}
          lessEq := if relation = .lessEq then own else {} } }]⟩

theorem clauseQuery_compare (cls : EntityClass) (relation : Relation) (negated : Bool)
    (said : Option Comparison) :
    clauseQuery cls (said.map (fun comparison => ⟨negated, .compare relation comparison⟩)).toList =
      comparisonQuery cls relation negated said := by
  cases relation <;> cases negated <;> cases said <;> rfl

/-- A comparison with a numeral is one with what the numeral is read as. -/
theorem compile_absolute (compiler : Compiler) (cls : EntityClass) {relation : Relation}
    (field : FieldName) (negated : Bool) {numeral : Number.Numeral} (plain : PlainNumeral numeral)
    (bare : BareOperand relation (numeralText numeral)) :
    compiler.compile (String.ofList (orderText relation field negated (numeralText numeral))) cls =
      comparisonQuery cls relation negated
        ((Number.ofOperand? numeral).map (.absolute (String.ofList field.chars))) := by
  have read := numeral_append plain (Eq.refl (Token.endsWord []))
  rw [List.append_nil] at read
  rw [← clauseQuery_compare, Option.map_map]
  apply bare.compile_eq compiler cls field negated (Or.inl _)
  rw [absolute_orderText, read, Option.map_some]
  rfl

/-- The operands of comparisons are told apart. Without quotes, a numeral is the number it stands
for, and says nothing only where it is too large for a double; everything else is an expression as
it stands. Quotes make an expression of whatever they hold. -/
theorem compile_comparison (compiler : Compiler) (cls : EntityClass) (relation : Relation)
    (field : FieldName) (negated : Bool) :
    (∀ operand, BareOperand relation operand →
      (∀ numeral, PlainNumeral numeral → operand = numeralText numeral →
        ∃ number, (∀ other, numeral.Denotes other ↔ other = number) ∧
          compiler.compile (String.ofList (orderText relation field negated operand)) cls =
            comparisonQuery cls relation negated
              (number.map (.absolute (String.ofList field.chars)))) ∧
      ((∀ numeral, PlainNumeral numeral → operand ≠ numeralText numeral) →
        compiler.compile (String.ofList (orderText relation field negated operand)) cls =
          comparisonQuery cls relation negated
            (some (.relative (String.ofList field.chars) (String.ofList operand))))) ∧
    (∀ chars, chars ≠ [] → (relation = .less ∨ relation = .lessEq → '>' ∉ chars) →
      compiler.compile
          (String.ofList (orderText relation field negated (quotedText chars))) cls =
        comparisonQuery cls relation negated
          (some (.relative (String.ofList field.chars) (String.ofList chars)))) := by
  refine ⟨fun operand bare => ⟨?_, ?_⟩, ?_⟩
  · rintro numeral plain rfl
    have known := Number.Numeral.denotes_iff (bare.isDigit_of_numeral plain rfl) plain.exponent
    exact ⟨Number.ofOperand? numeral, fun other => (known other).trans eq_comm,
      compiler.compile_absolute cls field negated plain bare⟩
  · intro other
    have unquoted : '"' ∉ operand := fun member => bare.plain '"' member (by decide)
    rw [← clauseQuery_compare]
    exact bare.compile_eq compiler cls field negated
      (Or.inr ⟨unread_absolute_orderText field negated bare.dark other,
        relative_orderText field negated bare.nonempty bare.fits bare.dark unquoted⟩)
  · intro chars nonempty unclosed
    rw [← clauseQuery_compare]
    exact compile_orderText field negated compiler cls (fits_quoted relation unclosed)
      (groups_quoted relation field negated chars) (not_occurs_quoted relation field negated chars)
      (Or.inr ⟨unread_absolute_quoted field negated chars,
        relative_quoted field negated nonempty⟩)

/-- The numeral of `2 ^ 63`, which is the first whole number to need a double. -/
def firstDouble : Number.Numeral := ⟨false, "9223372036854775808".toList, none, none⟩

/-- `f!<9223372036854775808` compares with the double `2 ^ 63`, `f!<1d` with an expression, and
`f!<"1"` with an expression too. -/
theorem compile_comparison_sorts :
    (BareOperand .less (numeralText firstDouble) ∧ PlainNumeral firstDouble) ∧
    (BareOperand .less ['1', 'd'] ∧
      ∀ numeral, PlainNumeral numeral → ['1', 'd'] ≠ numeralText numeral) ∧
    ({} : Compiler).compile
        (String.ofList (orderText .less ⟨['f'], by decide, rfl⟩ true (numeralText firstDouble)))
        ⟨"User", []⟩ =
      ⟨{ className := "User" }, [{ kind := .allOf, clauses :=
        { less := ⟨[], [.absolute "f" (.double ⟨false, 0x43e0_0000_0000_0000, by decide⟩)]⟩ } }]⟩ ∧
    ({} : Compiler).compile
        (String.ofList (orderText .less ⟨['f'], by decide, rfl⟩ true ['1', 'd'])) ⟨"User", []⟩ =
      ⟨{ className := "User" },
        [{ kind := .allOf, clauses := { less := ⟨[], [.relative "f" "1d"]⟩ } }]⟩ ∧
    ({} : Compiler).compile
        (String.ofList (orderText .less ⟨['f'], by decide, rfl⟩ true (quotedText ['1'])))
        ⟨"User", []⟩ =
      ⟨{ className := "User" },
        [{ kind := .allOf, clauses := { less := ⟨[], [.relative "f" "1"]⟩ } }]⟩ := by
  have number : BareOperand .less (numeralText firstDouble) :=
    ⟨by decide, rfl, by decide⟩
  have plain : PlainNumeral firstDouble := ⟨by decide, nofun, rfl⟩
  have expression : BareOperand .less ['1', 'd'] := ⟨by decide, rfl, by decide⟩
  have unspelled : ∀ numeral, PlainNumeral numeral → ['1', 'd'] ≠ numeralText numeral := by
    intro numeral plain spells
    have read := numeral_append plain (Eq.refl (Token.endsWord []))
    rw [List.append_nil, ← spells] at read
    cases congrArg (fun found => found.map Prod.snd) read
  obtain ⟨bare, quoted⟩ := compile_comparison {} ⟨"User", []⟩ .less ⟨['f'], by decide, rfl⟩ true
  obtain ⟨value, denotes, compiled⟩ := (bare _ number).1 firstDouble plain rfl
  have nearest :
      firstDouble.Denotes (some (.double ⟨false, 0x43e0_0000_0000_0000, by decide⟩)) := by
    refine .double ?_ _ (by decide +kernel)
    intro value spelled
    cases spelled
    decide
  rw [← (denotes _).mp nearest] at compiled
  exact ⟨⟨number, plain⟩, ⟨expression, unspelled⟩, compiled, (bare _ expression).2 unspelled,
    quoted ['1'] (by decide) (by decide)⟩

end Compiler

end SelectorLang
