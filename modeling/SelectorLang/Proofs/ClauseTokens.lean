import SelectorLang.Clause.Stage
import SelectorLang.Proofs.ClauseLists
import SelectorLang.Proofs.Delimited
import SelectorLang.Proofs.Scanning

set_option autoImplicit false

namespace SelectorLang

def Relation.stage : Relation → String
  | .greater => "gt"
  | .greaterEq => "gte"
  | .less => "lt"
  | .lessEq => "lte"

def Family.stage : Family → String
  | .guid => "guid"
  | .tag => "tag"
  | .truthy => "truthy"
  | .equal => "equal"
  | .contain => "contain"
  | .regex | .regexFold => "match"
  | .like | .likeFold => "like"
  | .compare relation => relation.stage
  | .reference => "ref"
  | .subquery => "qref"

structure FieldName where
  chars : List Char
  nonempty : chars ≠ []
  wellFormed : chars.all isFieldChar = true

theorem isDecimalDigit_of_blank {c : Char} (blank : isBlank c = true) :
    isDecimalDigit c = false := by
  have codes : ∀ code ∈ blankCodes, isDecimalDigit (Char.ofNat code) = false := by decide +kernel
  exact blank_induction (fun c => isDecimalDigit c = false) codes blank

theorem isFieldChar_of_blank {c : Char} (blank : isBlank c = true) : isFieldChar c = false := by
  have codes : ∀ code ∈ blankCodes, isFieldChar (Char.ofNat code) = false := by decide +kernel
  exact blank_induction (fun c => isFieldChar c = false) codes blank

namespace Reader

theorem Dark.bind {α β : Type} {reader : Reader α} (dark : reader.Dark) (next : α → Reader β) :
    (reader >>= next).Dark :=
  fun c rest blank => bind_of_none next (dark c rest blank)

theorem dark_exactly {first : Char} {others : List Char} (word : isBlank first = false) :
    (exactly (first :: others)).Dark := by
  intro c rest blank
  exact exactly_of_ne (ne_of_accepted blank word).symm others rest

/-- A run over a class without blanks ends where a word ends. -/
theorem stops_of_endsWord {accepts : Char → Bool} {text : List Char}
    (ends : Token.endsWord text = true) (words : ∀ c, isBlank c = true → accepts c = false) :
    Stops accepts text := by
  cases text with
  | nil => exact stops_nil accepts
  | cons c rest => exact stops_cons (words c ends) rest

theorem stops_mark_of_endsWord {mark : Char} (dark : isBlank mark = false) {text : List Char}
    (ends : Token.endsWord text = true) : Stops (· == mark) text := by
  apply stops_of_endsWord ends
  intro c blank
  rw [beq_eq_false_iff_ne]
  exact ne_of_accepted blank dark

/-- A reader that takes a front of the text, whatever it answers. -/
def TakesFront {α : Type} (reader : Reader α) : Prop := Takes reader (fun _ _ => True)

theorem Takes.front {α : Type} {reader : Reader α} {shape : List Char → α → Prop}
    (takes : Takes reader shape) : TakesFront reader :=
  takes.mono (fun _ _ _ => trivial)

end Reader

namespace Clause

open Reader

/-- The mark that negates a clause. -/
def mark (negated : Bool) : List Char := if negated then ['!'] else []

@[simp] theorem mark_false : mark false = [] := rfl

@[simp] theorem mark_true : mark true = ['!'] := rfl

theorem eq_of_mem_mark {negated : Bool} {c : Char} (member : c ∈ mark negated) : c = '!' := by
  cases negated with
  | false => cases member
  | true => exact List.mem_singleton.mp member

theorem dark_target : target.Dark := by
  intro c rest blank
  exact bind_of_none _ (run1_of_stops (stops_cons (isFieldChar_of_blank blank) rest))

theorem takes_target : Takes target (fun lexeme subject => ∃ field : FieldName,
    lexeme = field.chars ++ mark subject.2 ∧ subject.1 = String.ofList field.chars) := by
  refine ((takes_run1 isFieldChar).bind (fun name => (takes_flag '!').bind
    (fun negated => takes_pure (String.ofList name, negated)))).mono ?_
  rintro _ _ ⟨_, name, _, rfl, ⟨rfl, nonempty, wellFormed⟩, _, negated, _, rfl, rfl, rfl, rfl⟩
  exact ⟨⟨_, nonempty, wellFormed⟩, by rw [List.append_nil]; rfl, rfl⟩

theorem target_append (field : FieldName) (negated : Bool) {c : Char}
    (outside : isFieldChar c = false) (unmarked : c ≠ '!') (rest : List Char) :
    target (field.chars ++ mark negated ++ c :: rest) =
      some ((String.ofList field.chars, negated), c :: rest) := by
  cases negated with
  | false =>
    rw [mark_false, List.append_nil, target, bind_of_some _ (run1_append field.nonempty
      field.wellFormed (stops_cons outside rest))]
    rw [bind_of_some _ (flag_cons_other unmarked rest)]
    rfl
  | true =>
    have bang : isFieldChar '!' = false := rfl
    rw [mark_true, List.append_assoc, List.singleton_append, target, bind_of_some _ (run1_append
      field.nonempty field.wellFormed (stops_cons bang (c :: rest)))]
    rw [bind_of_some _ (flag_cons_self '!' (c :: rest))]
    rfl

theorem takes_plainOperand (starts : Char → Bool) : TakesFront (plainOperand starts) :=
  (takes_satisfy _).answer (fun _ => (takes_run _).answer (fun _ => (takes_pure _).front))

theorem takes_identifier :
    Takes identifier (fun lexeme value =>
      isIdentifier lexeme = true ∧ value = String.ofList lexeme) := by
  have last : ∀ digits : List Char, Takes
      (if isIdentifier digits then pure (String.ofList digits) else failure : Reader String)
      (fun lexeme value =>
        lexeme = [] ∧ isIdentifier digits = true ∧ value = String.ofList digits) := by
    intro digits
    split
    · rename_i known
      exact (takes_pure _).mono (fun _ _ found => ⟨found.1, known, found.2⟩)
    · exact takes_failure
  refine ((takes_run isHexDigit).bind last).mono ?_
  rintro _ _ ⟨_, digits, _, rfl, ⟨rfl, _⟩, rfl, known, rfl⟩
  rw [List.append_nil]
  exact ⟨known, rfl⟩

/-- The answer is a clause of a kind that the stage reads. -/
def Says (stage : String) (answer : Option Clause) : Prop :=
  ∃ clause, answer = some clause ∧ clause.condition.family.stage = stage

theorem takes_says {clause : Clause} {stage : String}
    (own : clause.condition.family.stage = stage) :
    Takes (pure (some clause) : Reader (Option Clause)) (fun _ => Says stage) :=
  (takes_pure (some clause)).mono (fun _ _ found => ⟨clause, found.2, own⟩)

theorem takes_equal : Takes equal (fun _ => Says "equal") := by
  have value : TakesFront ((do pure (Json.string (unquoted (← quoted)))) <|>
      (do pure (valueOf (← plainOperand (fun _ => true))))) :=
    .orElse (takes_quoted.answer (fun _ => (takes_pure _).front))
      ((takes_plainOperand _).answer (fun _ => (takes_pure _).front))
  exact takes_target.answer (fun _ => (takes_exactly _).answer
    (fun _ => value.answer (fun _ => takes_says rfl)))

/-- A reference by identifier: a field and the identifier in angle brackets and braces. -/
theorem takes_referenceText : Takes reference (fun lexeme answer =>
    ∃ (field : FieldName) (negated : Bool) (digits : List Char),
      lexeme = field.chars ++ mark negated ++ '<' :: '\x7b' :: (digits ++ ['\x7d', '>']) ∧
      isIdentifier digits = true ∧
      answer = some ⟨negated, .reference (String.ofList field.chars) (String.ofList digits)⟩) := by
  refine (takes_target.bind (fun subject => (takes_exactly ['<', '\x7b']).bind (fun _ =>
    takes_identifier.bind (fun value => (takes_exactly ['\x7d', '>']).bind (fun _ =>
      takes_pure (onField subject (.reference · value))))))).mono ?_
  rintro _ _ ⟨_, ⟨name, negated⟩, _, rfl, ⟨field, rfl, same⟩, _, _, _, rfl, rfl,
    digits, _, _, rfl, ⟨known, rfl⟩, _, _, _, rfl, rfl, rfl, rfl⟩
  cases same
  exact ⟨field, negated, digits, by simp, known, rfl⟩

theorem takes_reference : Takes reference (fun _ => Says "ref") := by
  refine takes_referenceText.mono ?_
  rintro _ _ ⟨field, negated, digits, _, _, rfl⟩
  exact ⟨_, rfl, rfl⟩

theorem takes_contain : Takes contain (fun _ => Says "contain") :=
  takes_target.answer (fun _ => (takes_exactly _).answer (fun _ => (takes_escapedRun1 _).answer
    (fun _ => (takes_exactly _).answer (fun _ => takes_says rfl))))

theorem takes_regex : Takes regex (fun _ => Says "match") := by
  refine takes_target.answer (fun subject => (takes_exactly _).answer (fun _ => takes_slashed.answer
    (fun body => (takes_flag 'i').answer (fun folds => ?_))))
  cases folds with
  | false => exact takes_says rfl
  | true => exact takes_says rfl

theorem takes_like : Takes like (fun _ => Says "like") := by
  refine takes_target.answer (fun subject => (takes_exactly _).answer (fun _ => .orElse ?_ ?_))
  · refine takes_quoted.answer (fun body => (takes_flag 'i').answer (fun folds => ?_))
    cases folds with
    | false => exact takes_says rfl
    | true => exact takes_says rfl
  · exact (takes_plainOperand _).answer (fun _ => takes_says rfl)

/-- An identifier in braces, behind the mark if there is one. -/
theorem takes_guidText : Takes guid (fun lexeme answer => ∃ (negated : Bool) (digits : List Char),
    lexeme = '\x7b' :: (mark negated ++ (digits ++ ['\x7d'])) ∧ isIdentifier digits = true ∧
      answer = some ⟨negated, .guid (String.ofList digits)⟩) := by
  refine ((takes_exactly ['\x7b']).bind (fun _ => (takes_flag '!').bind (fun negated =>
    takes_identifier.bind (fun value => (takes_exactly ['\x7d']).bind (fun _ =>
      takes_pure (some (⟨negated, .guid value⟩ : Clause))))))).mono ?_
  rintro _ _ ⟨_, _, _, rfl, rfl, _, negated, _, rfl, rfl, digits, _, _, rfl, ⟨known, rfl⟩, _, _, _,
    rfl, rfl, rfl, rfl⟩
  exact ⟨negated, digits, by simp [mark], known, rfl⟩

theorem takes_guid : Takes guid (fun _ => Says "guid") := by
  refine takes_guidText.mono ?_
  rintro _ _ ⟨negated, digits, _, _, rfl⟩
  exact ⟨_, rfl, rfl⟩

/-- A field in square brackets, behind the mark if there is one. -/
theorem takes_truthyText : Takes truthy (fun lexeme answer =>
    ∃ (negated : Bool) (field : FieldName),
      lexeme = '[' :: (mark negated ++ (field.chars ++ [']'])) ∧
      answer = some ⟨negated, .truthy (String.ofList field.chars)⟩) := by
  refine ((takes_exactly ['[']).bind (fun _ => (takes_flag '!').bind (fun negated =>
    (takes_run1 isFieldChar).bind (fun name => (takes_exactly [']']).bind (fun _ =>
      takes_pure (some (⟨negated, .truthy (String.ofList name)⟩ : Clause))))))).mono ?_
  rintro _ _ ⟨_, _, _, rfl, rfl, _, negated, _, rfl, rfl, _, name, _, rfl,
    ⟨rfl, nonempty, wellFormed⟩, _, _, _, rfl, rfl, rfl, rfl⟩
  exact ⟨negated, ⟨_, nonempty, wellFormed⟩, by simp [mark], rfl⟩

theorem takes_truthy : Takes truthy (fun _ => Says "truthy") := by
  refine takes_truthyText.mono ?_
  rintro _ _ ⟨negated, field, _, rfl⟩
  exact ⟨_, rfl, rfl⟩

/-- A tag in angle brackets, behind the mark if there is one. It has neither blanks nor angle
brackets and does not begin with a second mark. -/
theorem takes_tagText : Takes tag (fun lexeme answer =>
    ∃ (negated : Bool) (first : Char) (others : List Char),
      lexeme = '<' :: (mark negated ++ (first :: others ++ ['>'])) ∧ first ≠ '!' ∧
      (∀ c ∈ first :: others, isBlank c = false ∧ c ≠ '<' ∧ c ≠ '>') ∧
      answer = some ⟨negated, .tag (String.ofList (first :: others))⟩) := by
  refine ((takes_exactly ['<']).bind (fun _ => (takes_flag '!').bind (fun negated =>
    (takes_satisfy _).bind (fun first => (takes_run _).bind (fun others =>
      (takes_exactly ['>']).bind (fun _ => takes_pure (some
        (⟨negated, .tag (String.ofList (first :: others))⟩ : Clause)))))))).mono ?_
  rintro _ _ ⟨_, _, _, rfl, rfl, _, negated, _, rfl, rfl, _, first, _, rfl, ⟨rfl, start⟩, others, _,
    _, rfl, ⟨rfl, inside⟩, _, _, _, rfl, rfl, rfl, rfl⟩
  simp only [List.all_eq_true, Bool.and_eq_true, Bool.not_eq_true', bne_iff_ne] at start inside
  refine ⟨negated, first, others, by simp [mark], start.2, ?_, rfl⟩
  exact List.forall_mem_cons.mpr ⟨⟨start.1.1.1, start.1.1.2, start.1.2⟩,
    fun c member => ⟨(inside c member).1.1, (inside c member).1.2, (inside c member).2⟩⟩

theorem takes_tag : Takes tag (fun _ => Says "tag") := by
  refine takes_tagText.mono ?_
  rintro _ _ ⟨negated, first, others, _, _, _, rfl⟩
  exact ⟨_, rfl, rfl⟩

theorem takes_relative (relation : Relation) :
    Takes (relative relation) (fun _ => Says relation.stage) := by
  have expression : TakesFront ((do pure (unquoted (← quoted1))) <|>
      (do pure (String.ofList (← plainOperand relation.startsOperand)))) :=
    .orElse (takes_quoted1.answer (fun _ => (takes_pure _).front))
      ((takes_plainOperand _).answer (fun _ => (takes_pure _).front))
  exact takes_target.answer (fun _ => (takes_exactly _).answer
    (fun _ => expression.answer (fun _ => takes_says rfl)))

def subqueryText (field : FieldName) (negated : Bool) (body : List Char) : List Char :=
  field.chars ++ mark negated ++ '<' :: '\x7b' :: (body ++ ['\x7d', '>'])

/-- The class and the query text that the body of a subquery clause holds. -/
def bodyParts (body : List Char) : List Char × List Char :=
  Text.cutAtBlank (Text.trim (LiteralKind.unescape .curly body))

theorem takes_subquery (embed : List Char → List Char → Option Query) :
    Takes (subquery embed) (fun lexeme answer => ∃ field negated body,
      lexeme = subqueryText field negated body ∧ body ≠ [] ∧ Body (· == '\x7d') body ∧
      isIdentifier body = false ∧
      answer = (embed (bodyParts body).1 (bodyParts body).2).map
        (fun query => ⟨negated, .subquery (String.ofList field.chars) query⟩)) := by
  have last : ∀ (subject : String × Bool) (body : List Char),
      Takes (if isIdentifier body then failure else
        pure ((embed (bodyParts body).1 (bodyParts body).2).map
          (fun query => (⟨subject.2, .subquery subject.1 query⟩ : Clause))) :
            Reader (Option Clause))
        (fun lexeme answer => lexeme = [] ∧ isIdentifier body = false ∧
          answer = (embed (bodyParts body).1 (bodyParts body).2).map
            (fun query => (⟨subject.2, .subquery subject.1 query⟩ : Clause))) := by
    intro subject body
    split
    · exact takes_failure
    · rename_i other
      rw [Bool.not_eq_true] at other
      exact (takes_pure _).mono (fun _ _ found => ⟨found.1, other, found.2⟩)
  refine (takes_target.bind (fun subject => (takes_exactly ['<', '\x7b']).bind (fun _ =>
    (takes_escapedRun1 (· == '\x7d')).bind (fun body => (takes_exactly ['\x7d', '>']).bind
      (fun _ => last subject body))))).mono ?_
  rintro _ _ ⟨_, ⟨name, negated⟩, _, rfl, ⟨field, rfl, same⟩, _, _, _, rfl, rfl,
    _, body, _, rfl, ⟨rfl, nonempty, units⟩, _, _, _, rfl, rfl, rfl, other, rfl⟩
  cases same
  exact ⟨field, negated, _, by simp [subqueryText], nonempty, units, other, rfl⟩

/-- What a subquery clause says in front of any text; one with an identifier for its body is
none. -/
theorem subquery_append (embed : List Char → List Char → Option Query) (field : FieldName)
    (negated : Bool) {body : List Char} (nonempty : body ≠ []) (units : Body (· == '\x7d') body)
    (after : List Char) :
    subquery embed (subqueryText field negated body ++ after) =
      if isIdentifier body then none
      else some ((embed (bodyParts body).1 (bodyParts body).2).map
        (fun query => ⟨negated, .subquery (String.ofList field.chars) query⟩), after) := by
  have text : subqueryText field negated body ++ after =
      field.chars ++ mark negated ++ '<' :: '\x7b' :: (body ++ '\x7d' :: '>' :: after) := by
    simp [subqueryText]
  have front := target_append field negated (c := '<') rfl (by decide)
    ('\x7b' :: (body ++ '\x7d' :: '>' :: after))
  have opening := exactly_append ['<', '\x7b'] (body ++ '\x7d' :: '>' :: after)
  have inside := escapedRun1_append units nonempty '\x7d' ('>' :: after) (by decide) rfl
  have closing := exactly_append ['\x7d', '>'] after
  simp only [List.cons_append, List.nil_append] at opening closing
  simp only [text, subquery, bind_apply, front, opening, inside, closing, Option.bind_some]
  split <;> rfl

def fractionText : Option (List Char) → List Char
  | none => []
  | some digits => '.' :: digits

def numeralText (numeral : Number.Numeral) : List Char :=
  (if numeral.negative then ['-'] else []) ++ numeral.wholeDigits ++
    fractionText numeral.fractionDigits

/-- A numeral without exponent, with digits where they are due. -/
structure PlainNumeral (numeral : Number.Numeral) : Prop where
  whole : numeral.wholeDigits ≠ [] ∧ numeral.wholeDigits.all isDecimalDigit = true
  fraction : ∀ digits, numeral.fractionDigits = some digits →
    digits ≠ [] ∧ digits.all isDecimalDigit = true
  exponent : numeral.exponent = none

theorem takes_numeral :
    Takes numeral (fun lexeme value => lexeme = numeralText value ∧ PlainNumeral value) := by
  have last : ∀ (negative : Bool) (digits : List Char) (pointed : Bool),
      Takes (if pointed then
          (some <$> run1 isDecimalDigit) >>= fun fraction =>
            pure (⟨negative, digits, fraction, none⟩ : Number.Numeral)
        else pure none >>= fun fraction => pure ⟨negative, digits, fraction, none⟩)
        (fun lexeme value => ∃ fraction, value = ⟨negative, digits, fraction, none⟩ ∧
          (if pointed then ['.'] else []) ++ lexeme = fractionText fraction ∧
          ∀ digits, fraction = some digits →
            digits ≠ [] ∧ digits.all isDecimalDigit = true) := by
    intro negative digits pointed
    cases pointed with
    | false =>
      refine ((takes_pure none).bind (fun fraction => takes_pure _)).mono ?_
      rintro _ _ ⟨_, _, _, rfl, ⟨rfl, rfl⟩, rfl, rfl⟩
      exact ⟨none, rfl, rfl, fun _ absent => nomatch absent⟩
    | true =>
      refine (((takes_run1 isDecimalDigit).map some).bind (fun fraction => takes_pure _)).mono ?_
      rintro _ _ ⟨_, _, _, rfl, ⟨_, ⟨rfl, digits⟩, rfl⟩, rfl, rfl⟩
      refine ⟨some _, rfl, by rw [List.append_nil]; rfl, ?_⟩
      intro _ same
      cases same
      exact digits
  refine ((takes_flag '-').bind (fun negative => (takes_run1 isDecimalDigit).bind (fun digits =>
    (takes_flag '.').bind (fun pointed => last negative digits pointed)))).mono ?_
  rintro _ _ ⟨_, negative, _, rfl, rfl, _, _, _, rfl, ⟨rfl, whole⟩, _, pointed, _, rfl, rfl,
    fraction, rfl, same, digits⟩
  refine ⟨?_, whole, digits, rfl⟩
  rw [same, numeralText, List.append_assoc]

theorem flag_numeralText {operand : Number.Numeral} (plain : PlainNumeral operand)
    (after : List Char) :
    flag '-' (numeralText operand ++ after) =
      some (operand.negative,
        operand.wholeDigits ++ (fractionText operand.fractionDigits ++ after)) := by
  obtain ⟨negative, whole, fraction, exponent⟩ := operand
  obtain ⟨nonempty, digits⟩ := plain.whole
  cases negative with
  | true =>
    simp only [numeralText, ↓reduceIte, List.append_assoc, List.cons_append, List.nil_append,
      flag_cons_self]
  | false =>
    simp only [numeralText, Bool.false_eq_true, ↓reduceIte, List.nil_append, List.append_assoc]
    cases whole with
    | nil => exact absurd rfl nonempty
    | cons first others =>
      apply flag_cons_other
      rw [List.all_cons, Bool.and_eq_true] at digits
      exact ne_of_accepted digits.1 rfl

/-- A numeral is read as it was written where a word ends behind it. -/
theorem numeral_append {operand : Number.Numeral} (plain : PlainNumeral operand) {after : List Char}
    (ends : Token.endsWord after = true) :
    numeral (numeralText operand ++ after) = some (operand, after) := by
  have signed := flag_numeralText plain after
  obtain ⟨negative, whole, fraction, exponent⟩ := operand
  obtain ⟨⟨wholeNonempty, wholeDigits⟩, fractionDigits, rfl⟩ := plain
  have later : Stops isDecimalDigit after :=
    stops_of_endsWord ends (fun _ => isDecimalDigit_of_blank)
  rw [numeral, bind_of_some _ signed]
  cases fraction with
  | none =>
    have pointless : Stops (· == '.') after := stops_mark_of_endsWord rfl ends
    rw [fractionText, List.nil_append, bind_of_some _ (run1_append wholeNonempty wholeDigits later),
      bind_of_some _ (flag_of_stops pointless)]
    rfl
  | some digits =>
    obtain ⟨nonempty, decimal⟩ := fractionDigits digits rfl
    have point : isDecimalDigit '.' = false := rfl
    rw [fractionText, List.cons_append, bind_of_some _ (run1_append wholeNonempty wholeDigits
      (stops_cons point _)), bind_of_some _ (flag_cons_self '.' _)]
    simp only [↓reduceIte, bind_apply, map_apply, run1_append nonempty decimal later,
      Option.map_some, Option.bind_some, pure_apply]

def comparisonText (relation : Relation) (field : FieldName) (negated : Bool)
    (numeral : Number.Numeral) : List Char :=
  field.chars ++ mark negated ++ relation.sign ++ numeralText numeral

theorem takes_absolute (relation : Relation) :
    Takes (absolute relation) (fun lexeme answer => ∃ field negated numeral,
      lexeme = comparisonText relation field negated numeral ∧ PlainNumeral numeral ∧
      answer = (Number.ofOperand? numeral).map (fun number =>
        ⟨negated, .compare relation (.absolute (String.ofList field.chars) number)⟩)) := by
  refine (takes_target.bind (fun subject => (takes_exactly relation.sign).bind (fun _ =>
    takes_numeral.bind (fun operand => takes_pure ((Number.ofOperand? operand).map (fun number =>
      (⟨subject.2, .compare relation (.absolute subject.1 number)⟩ : Clause))))))).mono ?_
  rintro _ _ ⟨_, ⟨name, negated⟩, _, rfl, ⟨field, rfl, same⟩, _, _, _, rfl, rfl,
    _, operand, _, rfl, ⟨rfl, plain⟩, rfl, rfl⟩
  cases same
  exact ⟨field, negated, operand, by simp [comparisonText], plain, rfl⟩

theorem absolute_append (relation : Relation) (field : FieldName) (negated : Bool)
    {operand : Number.Numeral} (plain : PlainNumeral operand) {after : List Char}
    (ends : Token.endsWord after = true) :
    absolute relation (comparisonText relation field negated operand ++ after) =
      some ((Number.ofOperand? operand).map (fun number =>
        ⟨negated, .compare relation (.absolute (String.ofList field.chars) number)⟩), after) := by
  obtain ⟨c, others, sign, outside, unmarked⟩ : ∃ c others, relation.sign = c :: others ∧
      isFieldChar c = false ∧ c ≠ '!' := by
    cases relation <;> exact ⟨_, _, rfl, rfl, by decide⟩
  have text : comparisonText relation field negated operand ++ after =
      field.chars ++ mark negated ++ c :: (others ++ (numeralText operand ++ after)) := by
    simp [comparisonText, sign]
  have front := target_append field negated outside unmarked
    (others ++ (numeralText operand ++ after))
  have opening := exactly_append relation.sign (numeralText operand ++ after)
  rw [sign] at opening
  simp only [List.cons_append] at opening
  simp only [text, absolute, bind_apply, front, sign, opening, numeral_append plain ends,
    Option.bind_some, pure_apply]

theorem dark_subquery (embed : List Char → List Char → Option Query) : (subquery embed).Dark :=
  dark_target.bind _

theorem dark_equal : equal.Dark := dark_target.bind _

theorem dark_reference : reference.Dark := dark_target.bind _

theorem dark_contain : contain.Dark := dark_target.bind _

theorem dark_regex : regex.Dark := dark_target.bind _

theorem dark_like : like.Dark := dark_target.bind _

theorem dark_guid : guid.Dark := (dark_exactly rfl).bind _

theorem dark_truthy : truthy.Dark := (dark_exactly rfl).bind _

theorem dark_tag : tag.Dark := (dark_exactly rfl).bind _

theorem dark_absolute (relation : Relation) : (absolute relation).Dark := dark_target.bind _

theorem dark_relative (relation : Relation) : (relative relation).Dark := dark_target.bind _

end Clause

end SelectorLang
