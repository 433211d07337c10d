import SelectorLang.Proofs.Forms
import SelectorLang.Proofs.LiteralSpans
import SelectorLang.Proofs.Passes

set_option autoImplicit false

namespace SelectorLang

open Reader

namespace Literal

theorem closed_of_bare {text : List Char} (bare : ∀ c ∈ text, isBare c = true) {after : List Char}
    (ends : Token.endsWord after = true) : Closed text after :=
  Or.inl (silent_of_unquoted bare (stops_mark_of_endsWord rfl ends))

theorem closed_of_quoted {front : List Char} (bare : ∀ c ∈ front, isBare c = true)
    {operator : Char} (sign : isOperator operator = true) {body : List Char}
    (units : Body (· == '"') body) {tail : List Char} (known : tail ∈ [[], ['i'], ['>']])
    {after : List Char} (ends : Token.endsWord after = true) :
    Closed (front ++ operator :: '"' :: (body ++ '"' :: tail)) after := by
  have other : operator ≠ '"' := ne_of_accepted sign rfl
  refine Or.inr ⟨front, operator, _, rfl, silent_of_unquoted bare (stops_cons_ne other _), ?_⟩
  rw [List.cons_append, List.append_assoc, List.cons_append]
  exact operand_quoted sign units known ends

/-- A slashed operand up to the end of its word. -/
theorem operand_slashed {body : List Char} (nonempty : body ≠ []) (units : Body (· == '/') body)
    (folds : Bool) {after : List Char} (ends : Token.endsWord after = true) :
    operand ('~' :: '/' :: (body ++ '/' :: ((if folds then ['i'] else []) ++ after))) =
      some ((), after.drop 1) := by
  have mark : ∀ rest, satisfy (fun c => c == '=' || c == '~' || c == '<' || c == '>')
      ('~' :: rest) = some ('~', rest) := satisfy_cons rfl
  have noQuote : ∀ rest, quoted ('/' :: rest) = none := fun rest =>
    bind_of_none _ (exactly_of_mismatch rfl)
  have inside := slashed_append units nonempty ((if folds then ['i'] else []) ++ after)
  have folded : flag 'i' ((if folds then ['i'] else []) ++ after) = some (folds, after) := by
    cases folds with
    | false => exact flag_of_stops (stops_mark_of_endsWord rfl ends)
    | true => exact flag_cons_self 'i' after
  simp only [operand, bind_apply, orElse_apply, mark, noQuote, inside, folded, Option.bind_some,
    Option.bind_none, Option.none_or, beq_self_eq_true, ↓reduceIte,
    wordEnd_of_endsWord ends]

theorem closed_of_slashed {front : List Char} (bare : ∀ c ∈ front, isBare c = true)
    {body : List Char} (nonempty : body ≠ []) (units : Body (· == '/') body) (folds : Bool)
    {after : List Char} (ends : Token.endsWord after = true) :
    Closed (front ++ '~' :: '/' :: (body ++ '/' :: if folds then ['i'] else [])) after := by
  have other : '~' ≠ '"' := by decide
  refine Or.inr ⟨front, '~', _, rfl, silent_of_unquoted bare (stops_cons_ne other _), ?_⟩
  rw [List.cons_append, List.append_assoc, List.cons_append]
  exact operand_slashed nonempty units folds ends

end Literal

namespace Clause

/-- An operand without quotes: it ends where its word ends. -/
def Unquoted (operand : List Char) : Prop :=
  Stops (· == '"') operand ∧ ∀ c ∈ operand, isBlank c = false

/-- The tokens that may leave a literal open, by the stage and the place of the pass that reads
them. -/
inductive LeavesOpen : String → Nat → List Char → Prop
  | subquery (field : FieldName) (negated : Bool) (body : List Char) :
    LeavesOpen "qref" 0 (subqueryText field negated body)
  | equal (field : FieldName) (negated : Bool) (operand : List Char) (unquoted : Unquoted operand) :
    LeavesOpen "equal" 0 (field.chars ++ mark negated ++ '=' :: operand)
  | contain (field : FieldName) (negated : Bool) (body : List Char)
    (inside : Body (fun c => c == '<' || c == '>') body) :
    LeavesOpen "contain" 0 (field.chars ++ mark negated ++ '<' :: (body ++ ['>']))
  | like (field : FieldName) (negated : Bool) (operand : List Char) (unquoted : Unquoted operand) :
    LeavesOpen "like" 0 (field.chars ++ mark negated ++ '~' :: operand)
  | tag (negated : Bool) (name : List Char) (dark : ∀ c ∈ name, isBlank c = false) :
    LeavesOpen "tag" 0 ('<' :: (mark negated ++ (name ++ ['>'])))
  | relative (relation : Relation) (field : FieldName) (negated : Bool) (operand : List Char)
    (unquoted : Unquoted operand) :
    LeavesOpen relation.stage 1 (field.chars ++ mark negated ++ (relation.sign ++ operand))

variable {α : Type}

theorem takes_unquoted (starts : Char → Bool) :
    Takes (plainOperand starts) (fun lexeme _ => Unquoted lexeme) := by
  refine ((takes_satisfy _).bind (fun first => (takes_run _).bind
    (fun others => takes_pure (first :: others)))).mono ?_
  rintro _ _ ⟨_, first, _, rfl, ⟨rfl, accepted⟩, _, others, _, rfl, ⟨rfl, dark⟩, rfl, rfl⟩
  simp only [Bool.and_eq_true, Bool.not_eq_true', bne_iff_ne] at accepted
  rw [List.append_nil]
  refine ⟨stops_cons_ne accepted.1.2 _, List.forall_mem_cons.mpr ⟨accepted.1.1, ?_⟩⟩
  intro c member
  exact Bool.not_eq_true' _ ▸ List.all_eq_true.mp dark c member

theorem takes_behind (sign : List Char) {next : String × Bool → Reader α} {fits : List Char → Prop}
    (behind : ∀ subject, Takes (next subject) (fun lexeme _ => fits lexeme)) :
    Takes (target >>= fun subject => exactly sign >>= fun _ => next subject)
      (fun lexeme _ => ∃ (field : FieldName) (negated : Bool) (operand : List Char),
        lexeme = field.chars ++ mark negated ++ (sign ++ operand) ∧ fits operand) := by
  refine (takes_target.bind (fun subject => (takes_exactly sign).bind
    (fun _ => behind subject))).mono ?_
  rintro _ _ ⟨_, ⟨name, negated⟩, _, rfl, ⟨field, rfl, _⟩, _, _, operand, rfl, rfl, fitting⟩
  exact ⟨field, negated, operand, rfl, fitting⟩

def Quoted (operand : List Char) : Prop :=
  ∃ body tail, operand = '"' :: (body ++ '"' :: tail) ∧ Body (· == '"') body ∧
    tail ∈ [[], ['i'], ['>']]

theorem takes_quotedOperand : Takes quoted (fun lexeme _ => Quoted lexeme) := by
  refine takes_quoted.mono ?_
  rintro _ body ⟨rfl, units⟩
  exact ⟨body, [], rfl, units, List.mem_cons_self⟩

theorem takes_quoted1Operand : Takes quoted1 (fun lexeme _ => Quoted lexeme) := by
  refine takes_quoted1.mono ?_
  rintro _ body ⟨rfl, _, units⟩
  exact ⟨body, [], rfl, units, List.mem_cons_self⟩

/-- A quoted operand behind a sign, which ends in an operator, closes its literal. -/
theorem closed_behind (field : FieldName) (negated : Bool) (sign : List Char) {operator : Char}
    (bare : sign.all isBare = true) (operates : Literal.isOperator operator = true)
    {operand : List Char} (quoted : Quoted operand) {after : List Char}
    (ends : Token.endsWord after = true) :
    Literal.Closed (field.chars ++ mark negated ++ (sign ++ [operator] ++ operand)) after := by
  obtain ⟨body, tail, rfl, units, known⟩ := quoted
  have front : ∀ c ∈ field.chars ++ mark negated ++ sign, isBare c = true :=
    List.forall_mem_append.mpr ⟨Phrase.bare_lead field negated, List.all_eq_true.mp bare⟩
  have closed := Literal.closed_of_quoted front operates units known ends
  rwa [List.append_assoc, ← List.singleton_append, ← List.append_assoc sign] at closed

/-- The token closes its literals in front of whatever ends its word, or may leave one open. -/
def ClosesOr (stage : String) (place : Nat) (lexeme : List Char) : Prop :=
  (∀ after, Token.endsWord after = true → Literal.Closed lexeme after) ∨
    LeavesOpen stage place lexeme

variable {stage : String} {place : Nat}

theorem closesOr_of_bare {reader : Reader α}
    (takes : Takes reader (fun lexeme _ => ∀ c ∈ lexeme, isBare c = true)) :
    Takes reader (fun lexeme _ => ClosesOr stage place lexeme) :=
  takes.mono (fun _ _ bare => Or.inl (fun _ ends => Literal.closed_of_bare bare ends))

theorem bare_numeralText {numeral : Number.Numeral} (plain : PlainNumeral numeral) :
    ∀ c ∈ numeralText numeral, isBare c = true := by
  have digits : ∀ {text : List Char}, text.all isDecimalDigit = true →
      ∀ c ∈ text, isBare c = true := by
    intro text decimal c member
    have digit : isDecimalDigit c = true := List.all_eq_true.mp decimal c member
    exact isBare_of_accepted (fun _ => isDecimalDigit_of_blank) rfl rfl digit
  obtain ⟨negative, whole, fraction, _⟩ := numeral
  obtain ⟨⟨_, wholeDigits⟩, fractionDigits, _⟩ := plain
  refine List.forall_mem_append.mpr ⟨List.forall_mem_append.mpr ⟨?_, digits wholeDigits⟩, ?_⟩
  · cases negative with
    | false => exact nofun
    | true => exact List.all_eq_true.mp rfl
  · cases fraction with
    | none => exact nofun
    | some behind =>
      exact List.forall_mem_cons.mpr ⟨rfl, digits (fractionDigits behind rfl).2⟩

theorem subquery_closesOr (embed : List Char → List Char → Option Query) :
    Takes (subquery embed) (fun lexeme _ => ClosesOr "qref" 0 lexeme) := by
  refine (takes_subquery embed).mono ?_
  rintro _ _ ⟨field, negated, body, rfl, _⟩
  exact Or.inr (.subquery field negated body)

theorem equal_closesOr : Takes equal (fun lexeme _ => ClosesOr "equal" 0 lexeme) := by
  have value : Takes ((do pure (Json.string (unquoted (← quoted)))) <|>
      (do pure (valueOf (← plainOperand (fun _ => true)))))
      (fun lexeme _ => Quoted lexeme ∨ Unquoted lexeme) :=
    .orElse
      ((takes_quotedOperand.then_pure _).mono (fun _ _ => Or.inl))
      (((takes_unquoted _).then_pure _).mono (fun _ _ => Or.inr))
  refine (takes_behind ['='] (fun _ => value.then_pure _)).mono ?_
  rintro _ _ ⟨field, negated, operand, rfl, quoted | unquoted⟩
  · exact Or.inl (fun _ ends => closed_behind field negated [] rfl rfl quoted ends)
  · exact Or.inr (.equal field negated operand unquoted)

theorem reference_closesOr : Takes reference (fun lexeme _ => ClosesOr "ref" 0 lexeme) := by
  refine closesOr_of_bare (takes_referenceText.mono ?_)
  rintro _ _ ⟨field, negated, digits, rfl, known, _⟩
  exact Phrase.forall_referenceText field negated (fun _ => isBare_of_isFieldChar) rfl
    ⟨digits, known⟩ (List.all_eq_true.mp rfl) (List.all_eq_true.mp rfl)

theorem contain_closesOr : Takes contain (fun lexeme _ => ClosesOr "contain" 0 lexeme) := by
  have bracketed : ∀ answer : List Char → Option Clause,
      Takes (escapedRun1 (fun c => c == '<' || c == '>') >>= fun body => exactly ['>'] >>= fun _ =>
        pure (answer body)) (fun lexeme _ => ∃ body, lexeme = body ++ ['>'] ∧
          Body (fun c => c == '<' || c == '>') body) := by
    intro answer
    refine ((takes_escapedRun1 _).bind (fun body => (takes_exactly ['>']).bind
      (fun _ => takes_pure (answer body)))).mono ?_
    rintro _ _ ⟨body, _, _, rfl, ⟨rfl, _, units⟩, _, _, _, rfl, rfl, rfl, rfl⟩
    exact ⟨body, by rw [List.append_nil], units⟩
  refine (takes_behind ['<'] (fun _ => bracketed _)).mono ?_
  rintro _ _ ⟨field, negated, _, rfl, body, rfl, units⟩
  exact Or.inr (.contain field negated body units)

theorem regex_closesOr : Takes regex (fun lexeme _ => ClosesOr "match" 0 lexeme) := by
  have pattern : ∀ answer : List Char → Bool → Option Clause,
      Takes (slashed >>= fun body => flag 'i' >>= fun folds => pure (answer body folds))
        (fun lexeme _ => ∃ (body : List Char) (folds : Bool),
          lexeme = '/' :: (body ++ '/' :: if folds then ['i'] else []) ∧ body ≠ [] ∧
            Body (· == '/') body) := by
    intro answer
    refine (takes_slashed.bind (fun body => (takes_flag 'i').bind
      (fun folds => takes_pure (answer body folds)))).mono ?_
    rintro _ _ ⟨_, body, _, rfl, ⟨rfl, nonempty, units⟩, _, folds, _, rfl, rfl, rfl, rfl⟩
    exact ⟨body, folds, by simp, nonempty, units⟩
  refine (takes_behind ['~'] (fun _ => pattern _)).mono ?_
  rintro _ _ ⟨field, negated, _, rfl, body, folds, rfl, nonempty, units⟩
  exact Or.inl (fun _ ends =>
    Literal.closed_of_slashed (Phrase.bare_lead field negated) nonempty units folds ends)

theorem like_closesOr : Takes like (fun lexeme _ => ClosesOr "like" 0 lexeme) := by
  have pattern : ∀ answer : List Char → Bool → Option Clause,
      Takes (quoted >>= fun body => flag 'i' >>= fun folds => pure (answer body folds))
        (fun lexeme _ => Quoted lexeme) := by
    intro answer
    refine (takes_quoted.bind (fun body => (takes_flag 'i').bind
      (fun folds => takes_pure (answer body folds)))).mono ?_
    rintro _ _ ⟨_, body, _, rfl, ⟨rfl, units⟩, _, folds, _, rfl, rfl, rfl, rfl⟩
    exact ⟨body, if folds then ['i'] else [], by simp, units, by cases folds <;> decide⟩
  refine (takes_behind ['~'] (fun _ => .orElse ((pattern _).mono (fun _ _ => Or.inl))
    (((takes_unquoted _).then_pure _).mono (fun _ _ => Or.inr)))).mono ?_
  rintro _ _ ⟨field, negated, operand, rfl, quoted | unquoted⟩
  · exact Or.inl (fun _ ends => closed_behind field negated [] rfl rfl quoted ends)
  · exact Or.inr (.like field negated operand unquoted)

theorem guid_closesOr : Takes guid (fun lexeme _ => ClosesOr "guid" 0 lexeme) := by
  refine closesOr_of_bare (takes_guidText.mono ?_)
  rintro _ _ ⟨negated, digits, rfl, known, _⟩
  exact List.forall_mem_cons.mpr ⟨rfl, Phrase.forall_bracketed negated
    (fun _ => isBare_of_isFieldChar) rfl
    (fun _ => Phrase.isFieldChar_of_mem_identifier ⟨digits, known⟩) '\x7d' rfl⟩

theorem truthy_closesOr : Takes truthy (fun lexeme _ => ClosesOr "truthy" 0 lexeme) := by
  refine closesOr_of_bare (takes_truthyText.mono ?_)
  rintro _ _ ⟨negated, field, rfl, _⟩
  exact List.forall_mem_cons.mpr ⟨rfl, Phrase.forall_bracketed negated
    (fun _ => isBare_of_isFieldChar) rfl (fun _ => Phrase.isFieldChar_of_mem field) ']' rfl⟩

theorem tag_closesOr : Takes tag (fun lexeme _ => ClosesOr "tag" 0 lexeme) := by
  refine takes_tagText.mono ?_
  rintro _ _ ⟨negated, first, others, rfl, _, inside, _⟩
  exact Or.inr (.tag negated (first :: others) (fun c member => (inside c member).1))

theorem absolute_closesOr (relation : Relation) :
    Takes (absolute relation) (fun lexeme _ => ClosesOr relation.stage 0 lexeme) := by
  refine closesOr_of_bare ((takes_absolute relation).mono ?_)
  rintro _ _ ⟨field, negated, numeral, rfl, plain, _⟩
  have sign : ∀ c ∈ relation.sign, isBare c = true := by
    cases relation <;> exact List.all_eq_true.mp rfl
  exact List.forall_mem_append.mpr
    ⟨List.forall_mem_append.mpr ⟨Phrase.bare_lead field negated, sign⟩, bare_numeralText plain⟩

theorem relative_closesOr (relation : Relation) :
    Takes (relative relation) (fun lexeme _ => ClosesOr relation.stage 1 lexeme) := by
  have expression : Takes ((do pure (unquoted (← quoted1))) <|>
      (do pure (String.ofList (← plainOperand relation.startsOperand))))
      (fun lexeme _ => Quoted lexeme ∨ Unquoted lexeme) :=
    .orElse
      ((takes_quoted1Operand.then_pure _).mono (fun _ _ => Or.inl))
      (((takes_unquoted _).then_pure _).mono (fun _ _ => Or.inr))
  refine (takes_behind relation.sign (fun _ => expression.then_pure _)).mono ?_
  rintro _ _ ⟨field, negated, operand, rfl, quoted | unquoted⟩
  · left
    intro after ends
    cases relation with
    | greater => exact closed_behind field negated [] rfl rfl quoted ends
    | greaterEq => exact closed_behind field negated ['>'] rfl rfl quoted ends
    | less => exact closed_behind field negated [] rfl rfl quoted ends
    | lessEq => exact closed_behind field negated ['<'] rfl rfl quoted ends
  · exact Or.inr (.relative relation field negated operand unquoted)

end Clause

/-- A pass reads tokens that close their literals, or that may leave one open. -/
theorem Stage.placed_closesOr {embed : List Char → List Char → Option Query} :
    ∀ pass ∈ placed (all embed),
      pass.reader.Takes (fun lexeme _ => Clause.ClosesOr pass.stage pass.place lexeme) :=
  forall_placed (Clause.subquery_closesOr embed) Clause.equal_closesOr Clause.reference_closesOr
    Clause.contain_closesOr Clause.regex_closesOr Clause.like_closesOr Clause.guid_closesOr
    Clause.truthy_closesOr Clause.tag_closesOr Clause.absolute_closesOr Clause.relative_closesOr

def Pass.places (pass : Pass) (text : List Char) : List Span := Piece.places 0 (pass.pieces text)

theorem Pass.slice_places (pass : Pass) (text : List Char) :
    (pass.places text).map (fun span => span.slice text) = (pass.claims text).map Claim.lexeme := by
  have slices := Piece.slice_places [] (pass.pieces text)
  rw [List.nil_append, pieces, Token.source_scan] at slices
  rw [places, pieces, claims, List.map_map]
  exact slices

/-- Every token of every pass stands apart from every literal of the text or covers it, unless it
cuts the literal off; then it is one that leaves literals open, and a blank of the literal is behind
it. -/
theorem Stage.token_place {embed : List Char → List Char → Option Query} {pass : Pass}
    (member : pass ∈ placed (all embed)) {text : List Char} {token literal : Span}
    (claimed : token ∈ pass.places text) (listed : literal ∈ Literal.spans text) :
    (token.Apart (Literal.bare text literal) ∨ token.Covers (Literal.bare text literal) ↔
        ¬token.Cuts (Literal.bare text literal)) ∧
      (token.Cuts (Literal.bare text literal) →
        Clause.LeavesOpen pass.stage pass.place (token.slice text) ∧
          ∃ c, text[token.stop]? = some c ∧ isBlank c = true) := by
  have proper := Literal.start_le_stop_bare text literal
  rcases Token.place_literal (placed_closesOr pass member) claimed listed with
    apart | covers | ⟨cuts, opens⟩
  · have whole := Span.not_cuts_of_apart proper apart
    exact ⟨⟨fun _ => whole, fun _ => Or.inl apart⟩, fun cuts => absurd cuts whole⟩
  · have whole := Span.not_cuts_of_covers covers
    exact ⟨⟨fun _ => whole, fun _ => Or.inr covers⟩, fun cuts => absurd cuts whole⟩
  · refine ⟨⟨?_, fun whole => absurd cuts whole⟩, fun _ => opens⟩
    rintro (apart | covers)
    · exact Span.not_cuts_of_apart proper apart
    · exact Span.not_cuts_of_covers covers

end SelectorLang
