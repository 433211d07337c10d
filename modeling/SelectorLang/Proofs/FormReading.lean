import SelectorLang.Clause.Stage
import SelectorLang.Proofs.Forms

set_option autoImplicit false

namespace SelectorLang

/-- The number of the pass that reads a form on a field. -/
def Operand.place : Operand → Nat
  | equal _ => 1
  | reference _ => 2
  | contain _ => 3
  | like _ _ => 5
  | number orEqual _ _ => if orEqual then 11 else 9
  | expression orEqual _ _ => if orEqual then 12 else 10

def Phrase.place (phrase : Phrase) : Nat :=
  match phrase.form with
  | .onField _ operand => operand.place
  | .guid _ => 6
  | .truthy _ => 7
  | .tag _ => 8

namespace Number.Numeral

variable {numeral : Numeral}
  (ascii : (numeral.wholeDigits ++ numeral.fractionDigits.getD []).all Char.isDigit = true)

include ascii

theorem ofOperand?_of_signed {value : Int} (spelled : numeral.toInt? = some value)
    (signed : -0x8000_0000_0000_0000 ≤ value ∧ value < 0x8000_0000_0000_0000) :
    ofOperand? numeral = some (.whole value (fits_of_signed signed)) := by
  simp only [ofOperand?, ascii, Bool.not_true, Bool.false_eq_true, ↓reduceIte, spelled]
  rw [dif_pos signed]

theorem ofOperand?_of_large (large : ∀ value, numeral.toInt? = some value →
    ¬(-0x8000_0000_0000_0000 ≤ value ∧ value < 0x8000_0000_0000_0000)) :
    ofOperand? numeral = numeral.toDouble?.map .double := by
  simp only [ofOperand?, ascii, Bool.not_true, Bool.false_eq_true, ↓reduceIte]
  split
  · rfl
  · rename_i value spelled
    rw [dif_neg (large value spelled)]

end Number.Numeral

namespace Clause

open Reader Token

def operator : Operand → Char
  | .equal _ => '='
  | .reference _ => '<'
  | .contain _ => '<'
  | .like _ _ => '~'
  | .number _ _ _ => '>'
  | .expression _ _ _ => '>'

theorem text_eq_cons (operand : Operand) : ∃ rest, operand.text = operator operand :: rest := by
  cases operand with
  | number orEqual => cases orEqual <;> exact ⟨_, rfl⟩
  | expression orEqual => cases orEqual <;> exact ⟨_, rfl⟩
  | _ => exact ⟨_, rfl⟩

theorem target_operand (field : FieldName) (negated : Bool) (operand : Operand)
    (after : List Char) :
    target ((field.chars ++ mark negated ++ operand.text) ++ after) =
      some ((String.ofList field.chars, negated), operand.text ++ after) := by
  obtain ⟨rest, text⟩ := text_eq_cons operand
  have outside : isFieldChar (operator operand) = false ∧ (operator operand == '!') = false := by
    cases operand <;> exact ⟨rfl, rfl⟩
  rw [text, List.append_assoc, List.cons_append]
  exact target_append field negated outside.1 (beq_eq_false_iff_ne.mp outside.2) (rest ++ after)

theorem exactly_other {operand : Operand} {c : Char} (other : (c == operator operand) = false)
    (others after : List Char) : exactly (c :: others) (operand.text ++ after) = none := by
  obtain ⟨rest, text⟩ := text_eq_cons operand
  rw [text, List.cons_append]
  exact exactly_of_ne (beq_eq_false_iff_ne.mp other) others (rest ++ after)

/-- What begins with a bracket has no field in front. -/
theorem target_of_bracket {c : Char} (outside : isFieldChar c = false) (rest : List Char) :
    target (c :: rest) = none :=
  bind_of_none _ (run1_of_stops (stops_cons outside rest))

/-- What begins with a field has no bracket in front. -/
theorem exactly_of_field {c : Char} (outside : isFieldChar c = false) (others : List Char)
    (field : FieldName) (rest : List Char) :
    exactly (c :: others) (field.chars ++ rest) = none := by
  obtain ⟨first, letters, parts⟩ := List.exists_cons_of_ne_nil field.nonempty
  have name := Phrase.isFieldChar_of_mem field (parts ▸ List.mem_cons_self)
  rw [parts, List.cons_append]
  exact exactly_of_ne (ne_of_accepted name outside).symm others (letters ++ rest)

variable {α : Type} {next : String × Bool → Reader α}

/-- A reader that begins with a field refuses the phrases of later passes if it refuses their
operands. -/
theorem refuses_of_operand {phrase : Phrase} {place : Nat} (later : place < phrase.place)
    (refused : ∀ operand : Operand, place < operand.place →
      ∀ subject after, next subject (operand.text ++ after) = none) :
    Refuses (target >>= next) phrase.text := by
  intro after _
  obtain ⟨negated, form⟩ := phrase
  cases form with
  | onField field operand =>
    simp only [Phrase.text]
    rw [bind_of_some _ (target_operand field negated operand after)]
    exact refused operand later _ after
  | guid identifier => exact bind_of_none _ (target_of_bracket rfl _)
  | truthy field => exact bind_of_none _ (target_of_bracket rfl _)
  | tag name => exact bind_of_none _ (target_of_bracket rfl _)

theorem claims_of_operand {value : α} {negated : Bool} {field : FieldName} {operand : Operand}
    (taken : ∀ after, endsWord after = true →
      next (String.ofList field.chars, negated) (operand.text ++ after) = some (value, after)) :
    Claims (target >>= next) (Phrase.text ⟨negated, .onField field operand⟩) value := by
  intro after ends
  simp only [Phrase.text]
  rw [bind_of_some _ (target_operand field negated operand after)]
  exact taken after ends

variable (field : FieldName) (negated : Bool)

theorem claims_equal (value : List Char) :
    Claims equal (Phrase.text ⟨negated, .onField field (.equal value)⟩)
      (some (Phrase.clause ⟨negated, .onField field (.equal value)⟩)) := by
  refine claims_of_operand (fun after ends => ?_)
  have body := quoted_append (body_quotedText value) after
  simp only [Operand.text, quotedText, List.cons_append, List.append_assoc, List.nil_append,
    bind_apply, exactly_singleton, Option.bind_some, orElse_apply, body, pure_apply,
    Option.some_or, unquoted, LiteralKind.unescape_escape]
  rfl

theorem all_isHexDigit (identifier : Identifier) : identifier.digits.all isHexDigit = true := by
  have digits := identifier.wellFormed
  rw [isIdentifier, Bool.and_eq_true] at digits
  exact digits.2

theorem identifier_append (identifier : Identifier) (rest : List Char) :
    Clause.identifier (identifier.digits ++ '\x7d' :: rest) =
      some (String.ofList identifier.digits, '\x7d' :: rest) := by
  have stops : Stops isHexDigit ('\x7d' :: rest) := stops_cons rfl rest
  simp only [Clause.identifier, bind_apply, run_append (all_isHexDigit identifier) stops,
    Option.bind_some, identifier.wellFormed, ↓reduceIte, pure_apply]

theorem claims_reference (identifier : Identifier) :
    Claims reference (Phrase.text ⟨negated, .onField field (.reference identifier)⟩)
      (some (Phrase.clause ⟨negated, .onField field (.reference identifier)⟩)) := by
  refine claims_of_operand (fun after ends => ?_)
  have opening := exactly_append ['<', '\x7b'] (identifier.digits ++ '\x7d' :: '>' :: after)
  have closing := exactly_append ['\x7d', '>'] after
  simp only [List.cons_append, List.nil_append] at opening closing
  simp only [Operand.text, List.cons_append, List.append_assoc, List.nil_append, bind_apply,
    opening, identifier_append, closing, Option.bind_some, pure_apply]
  rfl

theorem claims_contain (value : PlainText) :
    Claims contain (Phrase.text ⟨negated, .onField field (.contain value)⟩)
      (some (Phrase.clause ⟨negated, .onField field (.contain value)⟩)) := by
  refine claims_of_operand (fun after ends => ?_)
  have units : Body (fun c => c == '<' || c == '>')
      (LiteralKind.angle.escape ('"' :: (value.chars ++ ['"']))) :=
    LiteralKind.angle.body_escape _
  have nonempty : LiteralKind.angle.escape ('"' :: (value.chars ++ ['"'])) ≠ [] := by
    rw [escape_angle_quotes]
    exact List.cons_ne_nil _ _
  have inside := escapedRun1_append units nonempty '>' after (by decide) rfl
  simp only [Operand.text, List.cons_append, List.append_assoc, List.nil_append, bind_apply,
    exactly_singleton, inside, Option.bind_some, pure_apply, LiteralKind.unescape_escape,
    valueOf, Json.ofText?_quoted value.wellFormed, Option.getD_some]
  rfl

theorem claims_like (folded : Bool) (pattern : List Char) :
    Claims like (Phrase.text ⟨negated, .onField field (.like folded pattern)⟩)
      (some (Phrase.clause ⟨negated, .onField field (.like folded pattern)⟩)) := by
  refine claims_of_operand (fun after ends => ?_)
  have body := quoted_append (body_quotedText pattern)
  have unmarked : flag 'i' after = some (false, after) :=
    flag_of_stops (stops_mark_of_endsWord rfl ends)
  cases folded with
  | false =>
    simp only [Operand.text, quotedText, List.cons_append, List.append_assoc, List.nil_append,
      Bool.false_eq_true, ↓reduceIte, bind_apply, exactly_singleton, Option.bind_some,
      orElse_apply, body, unmarked, pure_apply, Option.some_or, unquoted,
      LiteralKind.unescape_escape]
    rfl
  | true =>
    simp only [Operand.text, quotedText, List.cons_append, List.append_assoc, List.nil_append,
      ↓reduceIte, bind_apply, exactly_singleton, Option.bind_some, orElse_apply, body,
      flag_cons_self, pure_apply, Option.some_or, unquoted, LiteralKind.unescape_escape]
    rfl

/-- A mark is read where no other one follows. -/
theorem flag_mark {rest : List Char} (stops : Stops (· == '!') rest) :
    flag '!' (mark negated ++ rest) = some (negated, rest) := by
  cases negated with
  | false => exact flag_of_stops stops
  | true => exact flag_cons_self '!' rest

theorem stops_of_names {chars : List Char} (names : ∀ c ∈ chars, isFieldChar c = true) {d : Char}
    (other : d ≠ '!') (rest : List Char) : Stops (· == '!') (chars ++ d :: rest) := by
  cases chars with
  | nil => exact stops_cons_ne other rest
  | cons c others =>
    have unmarked : c ≠ '!' := ne_of_accepted (names c List.mem_cons_self) rfl
    exact stops_cons_ne unmarked (others ++ d :: rest)

theorem claims_guid (identifier : Identifier) :
    Claims guid (Phrase.text ⟨negated, .guid identifier⟩)
      (some (Phrase.clause ⟨negated, .guid identifier⟩)) := by
  intro after ends
  have stops : Stops (· == '!') (identifier.digits ++ '\x7d' :: after) :=
    stops_of_names (fun c => Phrase.isFieldChar_of_mem_identifier identifier) (by decide) after
  simp only [Phrase.text, List.cons_append, List.append_assoc, List.nil_append, guid,
    bind_apply, exactly_singleton, Option.bind_some, flag_mark negated stops, identifier_append,
    pure_apply]
  rfl

theorem claims_truthy :
    Claims truthy (Phrase.text ⟨negated, .truthy field⟩)
      (some (Phrase.clause ⟨negated, .truthy field⟩)) := by
  intro after ends
  have stops : Stops (· == '!') (field.chars ++ ']' :: after) :=
    stops_of_names (fun c => Phrase.isFieldChar_of_mem field) (by decide) after
  have ending : Stops isFieldChar (']' :: after) := stops_cons rfl after
  simp only [Phrase.text, List.cons_append, List.append_assoc, List.nil_append, truthy,
    bind_apply, exactly_singleton, Option.bind_some, flag_mark negated stops,
    run1_append field.nonempty field.wellFormed ending, pure_apply]
  rfl

theorem claims_tagText {first : Char} {others : List Char} (unmarked : first ≠ '!')
    (inside : ∀ c ∈ first :: others, isBlank c = false ∧ c ≠ '<' ∧ c ≠ '>') :
    Claims tag ('<' :: (mark negated ++ (first :: others ++ ['>'])))
      (some ⟨negated, .tag (String.ofList (first :: others))⟩) := by
  intro after _
  have accepted : ∀ c ∈ first :: others, (!isBlank c && c != '<' && c != '>') = true := by
    intro c member
    obtain ⟨dark, opening, closing⟩ := inside c member
    simp only [dark, Bool.not_false, Bool.true_and, Bool.and_eq_true, bne_iff_ne]
    exact ⟨opening, closing⟩
  obtain ⟨own, rest⟩ := List.forall_mem_cons.mp accepted
  have start : satisfy (fun c => (!isBlank c && c != '<' && c != '>') && c != '!')
      (first :: (others ++ '>' :: after)) = some (first, others ++ '>' :: after) := by
    apply satisfy_cons
    rw [own, Bool.true_and, bne_iff_ne]
    exact unmarked
  have more : run (fun c => !isBlank c && c != '<' && c != '>') (others ++ '>' :: after) =
      some (others, '>' :: after) :=
    run_append (List.all_eq_true.mpr rest) (stops_cons rfl after)
  have marked := flag_mark negated (stops_cons_ne unmarked (others ++ '>' :: after))
  simp only [List.cons_append, List.append_assoc, List.nil_append, tag, bind_apply,
    exactly_singleton, Option.bind_some, marked, start, more, pure_apply]

theorem claims_tag (name : TagName) :
    Claims tag (Phrase.text ⟨negated, .tag name⟩) (some (Phrase.clause ⟨negated, .tag name⟩)) := by
  have inside : ∀ c ∈ name.chars, (isBlank c = false ∧ c ≠ '<' ∧ c ≠ '>') ∧ c ≠ '!' := by
    intro c member
    have letter := Phrase.isFieldChar_of_mem_tag name member
    have other : ∀ d, isFieldChar d = false → c ≠ d := fun _ => ne_of_accepted letter
    exact ⟨⟨isBlank_of_isFieldChar letter, other '<' rfl, other '>' rfl⟩, other '!' rfl⟩
  obtain ⟨first, others, parts⟩ := List.exists_cons_of_ne_nil name.nonempty
  rw [parts] at inside
  have taken := claims_tagText negated (inside first List.mem_cons_self).2
    (fun c member => (inside c member).1)
  rwa [← parts] at taken

def numeralOf (value : Int) : Number.Numeral :=
  ⟨value < 0, Nat.toDigits 10 value.natAbs, none, none⟩

theorem plain_numeralOf (value : Int) : PlainNumeral (numeralOf value) where
  whole := ⟨Nat.toDigits_ne_nil, all_isDecimalDigit (all_isDigit_toDigits value.natAbs)⟩
  fraction := nofun
  exponent := rfl

theorem numeralText_numeralOf (value : Int)
    (fits : -0x8000_0000_0000_0000 ≤ value ∧ value < 0x1_0000_0000_0000_0000) :
    numeralText (numeralOf value) = Number.text (.whole value fits) := by
  rw [number_text, numeralText, numeralOf, fractionText, List.append_nil]
  simp only [decide_eq_true_eq]

theorem toInt?_numeralOf (value : Int) : (numeralOf value).toInt? = some value := by
  simp only [Number.Numeral.toInt?, numeralOf, Nat.ofDigitChars_ten_toDigits, decide_eq_true_eq,
    Option.some.injEq]
  split <;> omega

/-- A whole number of 64 bits with a sign is read as itself. -/
theorem ofOperand?_numeralOf (value : Int)
    (fits : -0x8000_0000_0000_0000 ≤ value ∧ value < 0x8000_0000_0000_0000) :
    Number.ofOperand? (numeralOf value) = some (.whole value (Number.fits_of_signed fits)) := by
  apply Number.Numeral.ofOperand?_of_signed _ (toInt?_numeralOf value) fits
  rw [numeralOf, Option.getD_none, List.append_nil]
  exact all_isDigit_toDigits value.natAbs

theorem claims_number (orEqual : Bool) (value : Int)
    (fits : -0x8000_0000_0000_0000 ≤ value ∧ value < 0x8000_0000_0000_0000) :
    Claims (absolute (.above orEqual))
      (Phrase.text ⟨negated, .onField field (.number orEqual value fits)⟩)
      (some (Phrase.clause ⟨negated, .onField field (.number orEqual value fits)⟩)) := by
  intro after ends
  have text : Phrase.text ⟨negated, .onField field (.number orEqual value fits)⟩ =
      comparisonText (.above orEqual) field negated (numeralOf value) := by
    rw [comparisonText, numeralText_numeralOf value (Number.fits_of_signed fits), List.append_assoc]
    rfl
  rw [text, absolute_append (.above orEqual) field negated (plain_numeralOf value) ends,
    ofOperand?_numeralOf value fits]
  rfl

theorem claims_expression (orEqual : Bool) (chars : List Char) (nonempty : chars ≠ []) :
    Claims (relative (.above orEqual))
      (Phrase.text ⟨negated, .onField field (.expression orEqual chars nonempty)⟩)
      (some (Phrase.clause ⟨negated, .onField field (.expression orEqual chars nonempty)⟩)) := by
  refine claims_of_operand (fun after ends => ?_)
  have filled : LiteralKind.quote.escape chars ≠ [] := by
    cases chars with
    | nil => exact absurd rfl nonempty
    | cons c rest =>
      rw [LiteralKind.escape]
      split <;> exact List.cons_ne_nil _ _
  have body := quoted1_append (body_quotedText chars) filled after
  have sign := exactly_append (Relation.above orEqual).sign
    ('"' :: (LiteralKind.quote.escape chars ++ '"' :: after))
  simp only [Operand.text, quotedText, List.append_assoc, List.cons_append, List.nil_append,
    bind_apply, sign, Option.bind_some, orElse_apply, body, pure_apply, Option.some_or, unquoted,
    LiteralKind.unescape_escape]
  rfl

theorem exactly_brace_contain (value : PlainText) (after : List Char) :
    exactly ['<', '\x7b'] ((Operand.contain value).text ++ after) = none := by
  rw [Operand.text, escape_angle_quotes]
  exact exactly_of_mismatch rfl

/-- An identifier in a reference body is no subquery. -/
theorem refuses_subquery (embed : List Char → List Char → Option Query) {phrase : Phrase}
    (later : 0 < phrase.place) : Refuses (subquery embed) phrase.text := by
  refine refuses_of_operand later (fun operand _ subject after => ?_)
  cases operand with
  | reference identifier =>
    have units : Body (· == '\x7d') identifier.digits := by
      apply (Phrase.body_identifier identifier).mono
      intro c inside
      exact (Bool.or_eq_false_iff.mp inside).2
    have nonempty : identifier.digits ≠ [] := by
      intro none
      have digits := identifier.wellFormed
      rw [none] at digits
      cases digits
    have opening := exactly_append ['<', '\x7b'] (identifier.digits ++ '\x7d' :: '>' :: after)
    have inside := escapedRun1_append units nonempty '\x7d' ('>' :: after) (by decide) rfl
    have closing := exactly_append ['\x7d', '>'] after
    simp only [List.cons_append, List.nil_append] at opening closing
    simp only [Operand.text, List.cons_append, List.append_assoc, List.nil_append, bind_apply,
      opening, inside, closing, Option.bind_some, identifier.wellFormed, ↓reduceIte, failure_apply]
  | contain value => exact bind_of_none _ (exactly_brace_contain value after)
  | _ => exact bind_of_none _ (exactly_other rfl _ _)

theorem refuses_equal {phrase : Phrase} (later : 1 < phrase.place) :
    Refuses equal phrase.text := by
  refine refuses_of_operand later (fun operand later subject after => ?_)
  refine bind_of_none _ (exactly_other ?_ _ _)
  cases operand with
  | equal value => simp only [Operand.place] at later; omega
  | _ => rfl

theorem refuses_reference {phrase : Phrase} (later : 2 < phrase.place) :
    Refuses reference phrase.text := by
  refine refuses_of_operand later (fun operand later subject after => ?_)
  cases operand with
  | equal _ | reference _ => simp only [Operand.place] at later; omega
  | contain value => exact bind_of_none _ (exactly_brace_contain value after)
  | _ => exact bind_of_none _ (exactly_other rfl _ _)

theorem refuses_contain {phrase : Phrase} (later : 3 < phrase.place) :
    Refuses contain phrase.text := by
  refine refuses_of_operand later (fun operand later subject after => ?_)
  refine bind_of_none _ (exactly_other ?_ _ _)
  cases operand with
  | equal _ | reference _ | contain _ => simp only [Operand.place] at later; omega
  | _ => rfl

theorem refuses_regex {phrase : Phrase} (later : 4 < phrase.place) :
    Refuses regex phrase.text := by
  refine refuses_of_operand later (fun operand later subject after => ?_)
  cases operand with
  | equal _ | reference _ | contain _ => simp only [Operand.place] at later; omega
  | like folded pattern =>
    have noSlash : ∀ rest, slashed ('"' :: rest) = none := fun rest =>
      bind_of_none _ (exactly_of_mismatch rfl)
    simp only [Operand.text, quotedText, List.cons_append, bind_apply, exactly_singleton,
      Option.bind_some, noSlash, Option.bind_none]
  | _ => exact bind_of_none _ (exactly_other rfl _ _)

theorem refuses_like {phrase : Phrase} (later : 5 < phrase.place) :
    Refuses like phrase.text := by
  refine refuses_of_operand later (fun operand later subject after => ?_)
  refine bind_of_none _ (exactly_other ?_ _ _)
  cases operand with
  | number _ _ _ | expression _ _ _ => rfl
  | _ => simp only [Operand.place] at later; omega

theorem refuses_guid {phrase : Phrase} (later : 6 < phrase.place) :
    Refuses guid phrase.text := by
  intro after _
  obtain ⟨negated, form⟩ := phrase
  cases form with
  | onField field operand =>
    simp only [Phrase.text, List.append_assoc]
    exact bind_of_none _ (exactly_of_field rfl [] field _)
  | guid identifier => simp only [Phrase.place] at later; omega
  | truthy field => exact bind_of_none _ (exactly_of_mismatch rfl)
  | tag name => exact bind_of_none _ (exactly_of_mismatch rfl)

theorem refuses_truthy {phrase : Phrase} (later : 7 < phrase.place) :
    Refuses truthy phrase.text := by
  intro after _
  obtain ⟨negated, form⟩ := phrase
  cases form with
  | onField field operand =>
    simp only [Phrase.text, List.append_assoc]
    exact bind_of_none _ (exactly_of_field rfl [] field _)
  | guid _ | truthy _ => simp only [Phrase.place] at later; omega
  | tag name => exact bind_of_none _ (exactly_of_mismatch rfl)

theorem refuses_tag {phrase : Phrase} (later : 8 < phrase.place) :
    Refuses tag phrase.text := by
  intro after _
  obtain ⟨negated, form⟩ := phrase
  cases form with
  | onField field operand =>
    simp only [Phrase.text, List.append_assoc]
    exact bind_of_none _ (exactly_of_field rfl [] field _)
  | _ => simp only [Phrase.place] at later; omega

theorem numeral_of_sign {c : Char} (other : c ≠ '-') (noDigit : isDecimalDigit c = false)
    (rest : List Char) : numeral (c :: rest) = none := by
  rw [numeral, bind_of_some _ (flag_cons_other other rest)]
  exact bind_of_none _ (run1_of_stops (stops_cons noDigit rest))

theorem quoted1_of_stops {text : List Char} (stops : Stops (· == '"') text) :
    quoted1 text = none :=
  bind_of_none _ (bind_of_none _ (exactly_of_stops stops))

theorem plainOperand_of_refused {starts : Char → Bool} {c : Char} (refused : starts c = false)
    (rest : List Char) : plainOperand starts (c :: rest) = none := by
  refine bind_of_none _ (satisfy_of_stops (stops_cons ?_ rest))
  rw [refused, Bool.and_false]

/-- What is left after numbers above a bound: quoted text behind the sign, or a longer sign. -/
theorem text_above {operand : Operand} (later : 9 < operand.place) :
    (∃ rest, operand.text = '>' :: '"' :: rest) ∨ ∃ rest, operand.text = '>' :: '=' :: rest := by
  cases operand with
  | number orEqual value fits =>
    cases orEqual with
    | false => simp only [Operand.place, Bool.false_eq_true, ↓reduceIte] at later; omega
    | true => exact Or.inr ⟨_, rfl⟩
  | expression orEqual chars nonempty =>
    cases orEqual with
    | false => exact Or.inl ⟨_, rfl⟩
    | true => exact Or.inr ⟨_, rfl⟩
  | _ => simp only [Operand.place] at later; omega

theorem text_longerSign {operand : Operand} (later : 10 < operand.place) :
    ∃ rest, operand.text = '>' :: '=' :: rest := by
  cases operand with
  | number orEqual value fits =>
    cases orEqual with
    | false => simp only [Operand.place, Bool.false_eq_true, ↓reduceIte] at later; omega
    | true => exact ⟨_, rfl⟩
  | expression orEqual chars nonempty =>
    cases orEqual with
    | false => simp only [Operand.place, Bool.false_eq_true, ↓reduceIte] at later; omega
    | true => exact ⟨_, rfl⟩
  | _ => simp only [Operand.place] at later; omega

theorem text_longerSign_quote {operand : Operand} (later : 11 < operand.place) :
    ∃ rest, operand.text = '>' :: '=' :: '"' :: rest := by
  cases operand with
  | number orEqual value fits =>
    cases orEqual <;> simp only [Operand.place, Bool.false_eq_true, ↓reduceIte] at later <;> omega
  | expression orEqual chars nonempty =>
    cases orEqual with
    | false => simp only [Operand.place, Bool.false_eq_true, ↓reduceIte] at later; omega
    | true => exact ⟨_, rfl⟩
  | _ => simp only [Operand.place] at later; omega

/-- Numbers above a bound are no longer sign's numbers and no quoted text. -/
theorem refuses_greater {phrase : Phrase} (later : 9 < phrase.place) :
    Refuses (absolute .greater) phrase.text := by
  have noQuote : ∀ rest, numeral ('"' :: rest) = none := numeral_of_sign (by decide) rfl
  have noEquals : ∀ rest, numeral ('=' :: rest) = none := numeral_of_sign (by decide) rfl
  refine refuses_of_operand later (fun operand later subject after => ?_)
  rcases text_above later with ⟨rest, text⟩ | ⟨rest, text⟩
  · simp only [text, Relation.sign, List.cons_append, bind_apply, exactly_singleton,
      Option.bind_some, noQuote, Option.bind_none]
  · simp only [text, Relation.sign, List.cons_append, bind_apply, exactly_singleton,
      Option.bind_some, noEquals, Option.bind_none]

/-- An expression above a bound does not begin with the rest of a longer sign. -/
theorem refuses_after {phrase : Phrase} (later : 10 < phrase.place) :
    Refuses (relative .greater) phrase.text := by
  have noQuote : ∀ rest, quoted1 ('=' :: rest) = none :=
    fun rest => quoted1_of_stops (stops_cons rfl rest)
  have noOperand : ∀ rest, plainOperand (Relation.startsOperand .greater) ('=' :: rest) = none :=
    plainOperand_of_refused rfl
  refine refuses_of_operand later (fun operand later subject after => ?_)
  obtain ⟨rest, text⟩ := text_longerSign later
  simp only [text, Relation.sign, List.cons_append, bind_apply, exactly_singleton,
    Option.bind_some, orElse_apply, noQuote, noOperand, Option.bind_none, Option.or_none]

theorem refuses_greaterEq {phrase : Phrase} (later : 11 < phrase.place) :
    Refuses (absolute .greaterEq) phrase.text := by
  refine refuses_of_operand later (fun operand later subject after => ?_)
  obtain ⟨rest, text⟩ := text_longerSign_quote later
  have noQuote : numeral ('"' :: (rest ++ after)) = none := numeral_of_sign (by decide) rfl _
  have sign := exactly_append ['>', '='] ('"' :: (rest ++ after))
  simp only [List.cons_append, List.nil_append] at sign
  simp only [text, Relation.sign, List.cons_append, bind_apply, sign, Option.bind_some,
    noQuote, Option.bind_none]

theorem place_le (phrase : Phrase) : phrase.place ≤ 12 := by
  obtain ⟨negated, form⟩ := phrase
  cases form with
  | onField field operand =>
    cases operand with
    | number orEqual value fits => cases orEqual <;> exact Nat.le_of_ble_eq_true rfl
    | expression orEqual chars nonempty => cases orEqual <;> exact Nat.le_of_ble_eq_true rfl
    | _ => exact Nat.le_of_ble_eq_true rfl
  | _ => exact Nat.le_of_ble_eq_true rfl

def readers (embed : List Char → List Char → Option Query) : List (Reader (Option Clause)) :=
  (Stage.all embed).flatMap Stage.passes

/-- The pass with its number takes a printed clause. -/
theorem claims_own (embed : List Char → List Char → Option Query) (phrase : Phrase) :
    ∃ reader, (readers embed)[phrase.place]? = some reader ∧
      Claims reader phrase.text (some phrase.clause) := by
  obtain ⟨negated, form⟩ := phrase
  cases form with
  | onField field operand =>
    cases operand with
    | equal value => exact ⟨_, rfl, claims_equal field negated value⟩
    | reference identifier => exact ⟨_, rfl, claims_reference field negated identifier⟩
    | contain value => exact ⟨_, rfl, claims_contain field negated value⟩
    | like folded pattern => exact ⟨_, rfl, claims_like field negated folded pattern⟩
    | number orEqual value fits =>
      cases orEqual with
      | false => exact ⟨_, rfl, claims_number field negated false value fits⟩
      | true => exact ⟨_, rfl, claims_number field negated true value fits⟩
    | expression orEqual chars nonempty =>
      cases orEqual with
      | false => exact ⟨_, rfl, claims_expression field negated false chars nonempty⟩
      | true => exact ⟨_, rfl, claims_expression field negated true chars nonempty⟩
  | guid identifier => exact ⟨_, rfl, claims_guid negated identifier⟩
  | truthy field => exact ⟨_, rfl, claims_truthy field negated⟩
  | tag name => exact ⟨_, rfl, claims_tag negated name⟩

/-- Every pass before its own refuses a printed clause. -/
theorem refuses_later (embed : List Char → List Char → Option Query) (phrase : Phrase)
    {place : Nat} {reader : Reader (Option Clause)} (found : (readers embed)[place]? = some reader)
    (later : place < phrase.place) : Refuses reader phrase.text := by
  have bound := place_le phrase
  match place, found, later with
  | 0, found, later => cases found; exact refuses_subquery embed later
  | 1, found, later => cases found; exact refuses_equal later
  | 2, found, later => cases found; exact refuses_reference later
  | 3, found, later => cases found; exact refuses_contain later
  | 4, found, later => cases found; exact refuses_regex later
  | 5, found, later => cases found; exact refuses_like later
  | 6, found, later => cases found; exact refuses_guid later
  | 7, found, later => cases found; exact refuses_truthy later
  | 8, found, later => cases found; exact refuses_tag later
  | 9, found, later => cases found; exact refuses_greater later
  | 10, found, later => cases found; exact refuses_after later
  | 11, found, later => cases found; exact refuses_greaterEq later
  | place + 12, _, later => omega

end Clause

end SelectorLang
