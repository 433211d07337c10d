import SelectorLang.Proofs.ClauseTokens
import SelectorLang.Proofs.Hiding
import SelectorLang.Proofs.Slots

set_option autoImplicit false

namespace SelectorLang

/-- A string that stands in JSON quotes as it is. -/
structure PlainText where
  chars : List Char
  wellFormed : ∀ c ∈ chars, c ≠ '"' ∧ c ≠ '\\' ∧ 0x20 ≤ c.toNat

structure Identifier where
  digits : List Char
  wellFormed : Clause.isIdentifier digits = true

structure TagName where
  chars : List Char
  nonempty : chars ≠ []
  wellFormed : chars.all isWordChar = true

/-- The relations that ask for more than a bound. -/
def Relation.above (orEqual : Bool) : Relation := if orEqual then .greaterEq else .greater

/-- What a form says about a field. -/
inductive Operand where
  | equal (value : List Char)
  | reference (identifier : Identifier)
  | contain (value : PlainText)
  | like (folded : Bool) (pattern : List Char)
  | number (orEqual : Bool) (value : Int)
      (fits : -0x8000_0000_0000_0000 ≤ value ∧ value < 0x8000_0000_0000_0000)
  | expression (orEqual : Bool) (chars : List Char) (nonempty : chars ≠ [])

inductive Form where
  | onField (field : FieldName) (operand : Operand)
  | guid (identifier : Identifier)
  | truthy (field : FieldName)
  | tag (name : TagName)

def quotedText (chars : List Char) : List Char := '"' :: (LiteralKind.quote.escape chars ++ ['"'])

namespace Operand

def text : Operand → List Char
  | equal value => '=' :: quotedText value
  | reference identifier => '<' :: '\x7b' :: (identifier.digits ++ ['\x7d', '>'])
  | contain value => '<' :: (LiteralKind.angle.escape ('"' :: (value.chars ++ ['"'])) ++ ['>'])
  | like folded pattern => '~' :: (quotedText pattern ++ if folded then ['i'] else [])
  | number orEqual value fits =>
    (Relation.above orEqual).sign ++ Number.text (.whole value (Number.fits_of_signed fits))
  | expression orEqual chars _ => (Relation.above orEqual).sign ++ quotedText chars

def condition (field : String) : Operand → Condition
  | equal value => .equal field (.string (String.ofList value))
  | reference identifier => .reference field (String.ofList identifier.digits)
  | contain value => .contain field (.string (String.ofList value.chars))
  | like folded pattern =>
    if folded then .likeFold field (String.ofList pattern) else .like field (String.ofList pattern)
  | number orEqual value fits =>
    .compare (Relation.above orEqual) (.absolute field (.whole value (Number.fits_of_signed fits)))
  | expression orEqual chars _ =>
    .compare (Relation.above orEqual) (.relative field (String.ofList chars))

end Operand

/-- A printed clause: a form and whether it is negated. -/
structure Phrase where
  negated : Bool
  form : Form

namespace Phrase

open Clause

def text (phrase : Phrase) : List Char :=
  match phrase.form with
  | .onField field operand => field.chars ++ mark phrase.negated ++ operand.text
  | .guid identifier => '\x7b' :: (mark phrase.negated ++ (identifier.digits ++ ['\x7d']))
  | .truthy field => '[' :: (mark phrase.negated ++ (field.chars ++ [']']))
  | .tag name => '<' :: (mark phrase.negated ++ (name.chars ++ ['>']))

def clause (phrase : Phrase) : Clause where
  negated := phrase.negated
  condition := match phrase.form with
    | .onField field operand => operand.condition (String.ofList field.chars)
    | .guid identifier => .guid (String.ofList identifier.digits)
    | .truthy field => .truthy (String.ofList field.chars)
    | .tag name => .tag (String.ofList name.chars)

end Phrase

namespace Json

theorem unitsOf_visible {c : Char} (plain : c ≠ '"' ∧ c ≠ '\\' ∧ 0x20 ≤ c.toNat)
    (rest : List Char) :
    unitsOf (c :: rest) = (unitsOf rest).map (fun found => (.char c :: found.1, found.2)) := by
  obtain ⟨quote, backslash, visible⟩ := plain
  have taken : (c == '\\' || decide (c.toNat < 0x20)) = false := by
    rw [beq_eq_false_iff_ne.mpr backslash, Bool.false_or, decide_eq_false_iff_not]
    omega
  rw [unitsOf.eq_def]
  split
  · rename_i none
    cases none
  · rename_i closing
    cases closing
    exact absurd rfl quote
  · rename_i escape
    exact absurd (List.cons.inj escape).1 backslash
  · rename_i escape
    exact absurd (List.cons.inj escape).1 backslash
  · rename_i same
    cases same
    simp only [taken, Bool.false_eq_true, ↓reduceIte]
    cases unitsOf rest <;> rfl

theorem unitsOf_plain {chars : List Char}
    (plain : ∀ c ∈ chars, c ≠ '"' ∧ c ≠ '\\' ∧ 0x20 ≤ c.toNat) (rest : List Char) :
    unitsOf (chars ++ '"' :: rest) = some (chars.map .char, rest) := by
  induction chars with
  | nil => simp only [List.nil_append, unitsOf, List.map_nil]
  | cons c others ih =>
    have later := ih (fun d member => plain d (List.mem_cons_of_mem c member))
    rw [List.cons_append, unitsOf_visible (plain c List.mem_cons_self), later]
    rfl

theorem charsOf?_plain (chars : List Char) : charsOf? (chars.map .char) = some chars := by
  induction chars with
  | nil => rfl
  | cons c others ih => rw [List.map_cons, charsOf?, ih, Option.map_some]

/-- A plain string in quotes is JSON for itself. -/
theorem ofText?_quoted {chars : List Char}
    (plain : ∀ c ∈ chars, c ≠ '"' ∧ c ≠ '\\' ∧ 0x20 ≤ c.toNat) :
    ofText? ('"' :: (chars ++ ['"'])) = some (.string (String.ofList chars)) := by
  have term : termAt (2 * ('"' :: (chars ++ ['"'])).length + 1) ('"' :: (chars ++ ['"'])) =
      some (.string (some (String.ofList chars)), []) := by
    have spaceless : skipSpace ('"' :: (chars ++ ['"'])) = '"' :: (chars ++ ['"']) := rfl
    rw [termAt, spaceless]
    simp only [stringAt, unitsOf_plain plain [], charsOf?_plain, Option.map_some]
  have read : Term.ofText? ('"' :: (chars ++ ['"'])) =
      some (.string (some (String.ofList chars))) := by
    rw [Term.ofText?, term]
    rfl
  rw [ofText?, read]
  rfl

end Json

theorem body_quotedText (chars : List Char) : Body (· == '"') (LiteralKind.quote.escape chars) :=
  LiteralKind.quote.body_escape chars

/-- A contained string with its quotes, after escaping: the same quotes around a body. -/
theorem escape_angle_quotes (value : PlainText) :
    LiteralKind.angle.escape ('"' :: (value.chars ++ ['"'])) =
      '"' :: (LiteralKind.angle.escape value.chars ++ ['"']) := by
  have quote : LiteralKind.angle.escape ['"'] = ['"'] := rfl
  rw [← quote, ← LiteralKind.escape_append]
  rfl

theorem body_contain (value : PlainText) :
    Body (· == '"') (LiteralKind.angle.escape value.chars) :=
  LiteralKind.angle.body_escape_of_outside
    (fun c member _ => beq_eq_false_iff_ne.mpr (value.wellFormed c member).1)

/-- A character that is no blank and neither begins nor ends a quoted literal by itself. -/
def isBare (c : Char) : Bool := !isBlank c && c != '~' && c != '"'

theorem isBare_iff {c : Char} : isBare c = true ↔ isBlank c = false ∧ c ≠ '~' ∧ c ≠ '"' := by
  simp only [isBare, Bool.and_eq_true, Bool.not_eq_true', bne_iff_ne, and_assoc]

theorem isBare_of_accepted {accepts : Char → Bool}
    (words : ∀ c, isBlank c = true → accepts c = false) (tilde : accepts '~' = false)
    (quote : accepts '"' = false) {c : Char} (accepted : accepts c = true) : isBare c = true :=
  isBare_iff.mpr ⟨Reader.refused_of_accepted words accepted, Reader.ne_of_accepted accepted tilde,
    Reader.ne_of_accepted accepted quote⟩

theorem isBlank_of_isFieldChar {c : Char} (name : isFieldChar c = true) : isBlank c = false :=
  @Reader.refused_of_accepted isFieldChar isBlank (fun _ => isFieldChar_of_blank) c name

theorem isBare_of_isFieldChar {c : Char} (name : isFieldChar c = true) : isBare c = true :=
  isBare_of_accepted (fun _ => isFieldChar_of_blank) rfl rfl name

theorem isFieldChar_of_isWordChar {c : Char} (word : isWordChar c = true) :
    isFieldChar c = true := by
  rw [isFieldChar, word]
  rfl

theorem toNat_of_isDigit {c : Char} (digit : c.isDigit = true) : 48 ≤ c.toNat ∧ c.toNat ≤ 57 := by
  simp only [Char.isDigit, Bool.and_eq_true, decide_eq_true_eq, ge_iff_le,
    UInt32.le_iff_toNat_le] at digit
  exact digit

theorem isDecimalDigit_of_isDigit {c : Char} (digit : c.isDigit = true) :
    isDecimalDigit c = true := by
  have low : c.toNat < 0x80 := Nat.lt_of_le_of_lt (toNat_of_isDigit digit).2 (by decide)
  rw [isDecimalDigit, if_pos low, digit]

theorem all_isDecimalDigit {digits : List Char} (ascii : digits.all Char.isDigit = true) :
    digits.all isDecimalDigit = true :=
  List.all_eq_true.mpr (fun c member =>
    isDecimalDigit_of_isDigit (List.all_eq_true.mp ascii c member))

theorem all_isDigit_toDigits (value : Nat) : (Nat.toDigits 10 value).all Char.isDigit = true :=
  List.all_eq_true.mpr (fun _ member =>
    Nat.isDigit_of_mem_toDigits (by decide) (Nat.le_refl 10) member)

theorem isFieldChar_of_isDigit {c : Char} (digit : c.isDigit = true) : isFieldChar c = true := by
  have low : c.toNat < 0x80 := Nat.lt_of_le_of_lt (toNat_of_isDigit digit).2 (by decide)
  apply isFieldChar_of_isWordChar
  rw [isWordChar, if_pos low, Char.isAlphanum, digit, Bool.or_true, Bool.true_or]

theorem isFieldChar_of_isHexDigit {c : Char} (digit : isHexDigit c = true) :
    isFieldChar c = true := by
  have bound : c.toNat < 0x67 := by
    have ranges := digit
    simp only [isHexDigit, Bool.or_eq_true, Bool.and_eq_true, decide_eq_true_eq, Char.le_def,
      UInt32.le_iff_toNat_le] at ranges
    rcases ranges with (number | ⟨_, upper⟩) | ⟨_, upper⟩
    · exact Nat.lt_of_le_of_lt (toNat_of_isDigit number).2 (by decide)
    · exact Nat.lt_succ_of_le upper
    · exact Nat.lt_of_le_of_lt upper (by decide)
  have codes : ∀ code < 0x67, isHexDigit (Char.ofNat code) = true →
      isFieldChar (Char.ofNat code) = true := by decide
  have found := codes c.toNat bound
  rw [Char.ofNat_toNat] at found
  exact found digit

open Reader

theorem silent_of_unquoted {front after : List Char} (unquoted : ∀ c ∈ front, isBare c = true)
    (behind : Reader.Stops (· == '"') after) : Literal.Silent front after := by
  induction front with
  | nil => trivial
  | cons c rest ih =>
    have others := fun d member => unquoted d (List.mem_cons_of_mem c member)
    refine ⟨Literal.operand_of_unquoted (isBare_iff.mp (unquoted c List.mem_cons_self)).2.1 ?_,
      ih others⟩
    cases rest with
    | nil => exact behind
    | cons next rest =>
      exact stops_cons_ne (isBare_iff.mp (others next List.mem_cons_self)).2.2 _

theorem solid_of_bare {word : List Char} (nonempty : word ≠ [])
    (bare : ∀ c ∈ word, isBare c = true) : Solid word := by
  apply Solid.plain word nonempty
  · intro c member
    exact (isBare_iff.mp (bare c member)).1
  · intro after ends
    exact silent_of_unquoted bare (stops_mark_of_endsWord rfl ends)

theorem wordEnd_of_endsWord {after : List Char} (ends : Token.endsWord after = true) :
    wordEnd after = some ((), after.drop 1) := by
  cases after with
  | nil => rfl
  | cons c rest =>
    have blank : isBlank c = true := ends
    simp only [wordEnd, blank, ↓reduceIte, List.drop_succ_cons, List.drop_zero]

/-- A quoted operand up to the end of its word; an angle bracket or a letter may follow the
quote. -/
theorem operand_quoted {operator : Char} (sign : Literal.isOperator operator = true)
    {body : List Char} (units : Body (· == '"') body) {tail : List Char}
    (known : tail ∈ [[], ['i'], ['>']]) {after : List Char} (ends : Token.endsWord after = true) :
    Literal.operand (operator :: '"' :: (body ++ '"' :: (tail ++ after))) =
      some ((), after.drop 1) := by
  have mark : ∀ rest, satisfy (fun c => c == '=' || c == '~' || c == '<' || c == '>')
      (operator :: rest) = some (operator, rest) := satisfy_cons sign
  have body := quoted_append units (tail ++ after)
  have finish := wordEnd_of_endsWord ends
  have unmarked : ∀ sign : Char, isBlank sign = false →
      flag sign after = some (false, after) := by
    intro sign dark
    exact flag_of_stops (stops_mark_of_endsWord dark ends)
  simp only [List.mem_cons, List.not_mem_nil, or_false] at known
  rcases known with rfl | rfl | rfl
  · simp only [List.nil_append] at body ⊢
    simp only [Literal.operand, bind_apply, orElse_apply, mark, body, Option.bind_some,
      unmarked 'i' rfl, unmarked '>' rfl, Bool.false_eq_true, ↓reduceIte, finish, Option.some_or]
  · simp only [List.singleton_append] at body ⊢
    simp only [Literal.operand, bind_apply, orElse_apply, mark, body, Option.bind_some,
      flag_cons_self, ↓reduceIte, finish, Option.some_or]
  · simp only [List.singleton_append] at body ⊢
    have next : ('>' : Char) ≠ 'i' := by decide
    simp only [Literal.operand, bind_apply, orElse_apply, mark, body, Option.bind_some,
      flag_cons_other next, flag_cons_self, Bool.false_eq_true, ↓reduceIte, finish, Option.some_or]

theorem solid_of_quoted {front : List Char} (bare : ∀ c ∈ front, isBare c = true)
    (operator : Char) (sign : Literal.isOperator operator = true)
    {body : List Char} (units : Body (· == '"') body) {tail : List Char}
    (known : tail ∈ [[], ['i'], ['>']]) :
    Solid (front ++ operator :: '"' :: (body ++ '"' :: tail)) := by
  have dark : isBlank operator = false := by
    simp only [Literal.isOperator, Bool.or_eq_true, beq_iff_eq] at sign
    rcases sign with ((rfl | rfl) | rfl) | rfl <;> rfl
  have other : operator ≠ '"' := by
    rintro rfl
    cases sign
  refine .quoted front operator (body ++ '"' :: tail) ?_ ?_ ?_
  · intro c member
    simp only [List.mem_append, List.mem_cons, List.not_mem_nil, or_false] at member
    rcases member with name | rfl | rfl
    · exact (isBare_iff.mp (bare c name)).1
    · exact dark
    · rfl
  · intro after ends
    exact silent_of_unquoted bare (stops_cons_ne other _)
  · intro after ends
    have read := operand_quoted sign units known ends
    rwa [List.append_assoc]

/-- Numbers are written in digits, behind a minus sign where they are negative. -/
theorem number_text (value : Int)
    (fits : -0x8000_0000_0000_0000 ≤ value ∧ value < 0x1_0000_0000_0000_0000) :
    Number.text (.whole value fits) =
      (if value < 0 then ['-'] else []) ++ Nat.toDigits 10 value.natAbs := by
  cases value with
  | ofNat size => rfl
  | negSucc size =>
    rw [if_pos (Int.negSucc_lt_zero size)]
    rfl

theorem isFieldChar_of_mem_number {value : Int}
    {fits : -0x8000_0000_0000_0000 ≤ value ∧ value < 0x1_0000_0000_0000_0000} {c : Char}
    (member : c ∈ Number.text (.whole value fits)) : isFieldChar c = true := by
  rw [number_text] at member
  rcases List.mem_append.mp member with sign | digit
  · split at sign
    · rw [List.mem_singleton.mp sign]
      rfl
    · cases sign
  · exact isFieldChar_of_isDigit (Nat.isDigit_of_mem_toDigits (by decide) (Nat.le_refl 10) digit)

theorem Relation.bare_sign (orEqual : Bool) :
    ∀ c ∈ (Relation.above orEqual).sign, isBare c = true := by
  cases orEqual <;> exact List.all_eq_true.mp rfl

namespace Phrase

open Clause

variable (field : FieldName) (negated : Bool)

theorem isFieldChar_of_mem {c : Char} (member : c ∈ field.chars) : isFieldChar c = true :=
  List.all_eq_true.mp field.wellFormed c member

theorem isFieldChar_of_mem_identifier (identifier : Identifier) {c : Char}
    (member : c ∈ identifier.digits) : isFieldChar c = true := by
  have digits := identifier.wellFormed
  rw [isIdentifier, Bool.and_eq_true] at digits
  exact isFieldChar_of_isHexDigit (List.all_eq_true.mp digits.2 c member)

/-- An identifier stands in braces as it is. -/
theorem body_identifier (identifier : Identifier) :
    Body LiteralKind.curly.isDelimiter identifier.digits := by
  apply Body.of_all
  intro c member
  have name := isFieldChar_of_mem_identifier identifier member
  have other : ∀ d, isFieldChar d = false → c ≠ d := fun _ => ne_of_accepted name
  rw [LiteralKind.isDelimiter, Bool.or_eq_false_iff, beq_eq_false_iff_ne, beq_eq_false_iff_ne]
  exact ⟨other '\\' rfl, other '\x7b' rfl, other '\x7d' rfl⟩

theorem isFieldChar_of_mem_tag (name : TagName) {c : Char} (member : c ∈ name.chars) :
    isFieldChar c = true :=
  isFieldChar_of_isWordChar (List.all_eq_true.mp name.wellFormed c member)

/-- What holds of names and of the mark that negates holds in front of an operand. -/
theorem forall_lead {holds : Char → Prop} (letters : ∀ c, isFieldChar c = true → holds c)
    (bang : holds '!') : ∀ c ∈ field.chars ++ mark negated, holds c := by
  intro c member
  rcases List.mem_append.mp member with name | sign
  · exact letters c (isFieldChar_of_mem field name)
  · rw [eq_of_mem_mark sign]
    exact bang

theorem forall_bracketed {holds : Char → Prop} (letters : ∀ c, isFieldChar c = true → holds c)
    (bang : holds '!') {name : List Char} (names : ∀ c ∈ name, isFieldChar c = true)
    (closing : Char) (last : holds closing) :
    ∀ c ∈ mark negated ++ (name ++ [closing]), holds c := by
  intro c member
  simp only [List.mem_append, List.mem_singleton] at member
  rcases member with sign | letter | rfl
  · rw [eq_of_mem_mark sign]
    exact bang
  · exact letters c (names c letter)
  · exact last

theorem forall_referenceText {holds : Char → Prop} (letters : ∀ c, isFieldChar c = true → holds c)
    (bang : holds '!') (identifier : Identifier) (opening : ∀ c ∈ ['<', '\x7b'], holds c)
    (closing : ∀ c ∈ ['\x7d', '>'], holds c) :
    ∀ c ∈ field.chars ++ mark negated ++
      '<' :: '\x7b' :: (identifier.digits ++ ['\x7d', '>']), holds c := by
  have digits : ∀ c ∈ identifier.digits, holds c :=
    fun c member => letters c (isFieldChar_of_mem_identifier identifier member)
  have body : ∀ c ∈ ['<', '\x7b'] ++ (identifier.digits ++ ['\x7d', '>']), holds c :=
    List.forall_mem_append.mpr ⟨opening, List.forall_mem_append.mpr ⟨digits, closing⟩⟩
  exact List.forall_mem_append.mpr ⟨forall_lead field negated letters bang, body⟩

theorem not_mem_lead {sign : Char} (outside : isFieldChar sign = false) (unmarked : '!' ≠ sign) :
    sign ∉ field.chars ++ mark negated := by
  have differs : ∀ c ∈ field.chars ++ mark negated, c ≠ sign :=
    forall_lead field negated (fun _ letter => Reader.ne_of_accepted letter outside) unmarked
  exact fun member => differs sign member rfl

theorem bare_lead : ∀ c ∈ field.chars ++ mark negated, isBare c = true :=
  forall_lead field negated (fun _ => isBare_of_isFieldChar) rfl

theorem lead_ne_nil (rest : List Char) : field.chars ++ mark negated ++ rest ≠ [] := by
  rw [List.append_assoc]
  exact List.append_ne_nil_of_left_ne_nil field.nonempty _

theorem solid_onField (operand : Operand) :
    Solid (field.chars ++ mark negated ++ operand.text) := by
  have bare := bare_lead field negated
  cases operand with
  | equal value => exact solid_of_quoted bare '=' rfl (body_quotedText value) List.mem_cons_self
  | reference identifier =>
    apply solid_of_bare (lead_ne_nil field negated _)
    apply List.forall_mem_append.mpr ⟨bare, _⟩
    intro c member
    simp only [Operand.text, List.mem_append, List.mem_cons, List.not_mem_nil, or_false] at member
    rcases member with rfl | rfl | digit | rfl | rfl
    · rfl
    · rfl
    · exact isBare_of_isFieldChar (isFieldChar_of_mem_identifier identifier digit)
    · rfl
    · rfl
  | contain value =>
    rw [Operand.text, escape_angle_quotes]
    have known : (['>'] : List Char) ∈ [[], ['i'], ['>']] := by decide
    have solid := solid_of_quoted bare '<' rfl (body_contain value) known
    simpa only [List.cons_append, List.append_assoc, List.nil_append] using solid
  | like folded pattern =>
    have known : (if folded then ['i'] else [] : List Char) ∈ [[], ['i'], ['>']] := by
      cases folded <;> decide
    have solid := solid_of_quoted bare '~' rfl (body_quotedText pattern) known
    simpa only [Operand.text, quotedText, List.cons_append, List.append_assoc, List.nil_append]
      using solid
  | number orEqual value fits =>
    have digits : ∀ c ∈ Number.text (.whole value (Number.fits_of_signed fits)),
        isBare c = true := by
      intro c digit
      exact isBare_of_isFieldChar (isFieldChar_of_mem_number digit)
    apply solid_of_bare (lead_ne_nil field negated _)
    exact List.forall_mem_append.mpr
      ⟨bare, List.forall_mem_append.mpr ⟨Relation.bare_sign orEqual, digits⟩⟩
  | expression orEqual chars nonempty =>
    have units := body_quotedText chars
    cases orEqual with
    | false => exact solid_of_quoted bare '>' rfl units List.mem_cons_self
    | true =>
      have longer : ∀ c ∈ field.chars ++ mark negated ++ ['>'], isBare c = true := by
        intro c member
        rcases List.mem_append.mp member with name | sign
        · exact bare c name
        · rw [List.mem_singleton.mp sign]
          rfl
      have solid := solid_of_quoted longer '=' rfl units List.mem_cons_self
      rw [List.append_assoc] at solid
      exact solid

theorem solid_bracketed {opening closing : Char} (first : isBare opening = true)
    (last : isBare closing = true) {name : List Char}
    (names : ∀ c ∈ name, isFieldChar c = true) :
    Solid (opening :: (mark negated ++ (name ++ [closing]))) := by
  apply solid_of_bare (List.cons_ne_nil _ _)
  rw [List.forall_mem_cons]
  exact ⟨first, forall_bracketed negated (fun _ => isBare_of_isFieldChar) rfl names closing last⟩

/-- A printed clause is solid. -/
theorem solid (phrase : Phrase) : Solid phrase.text := by
  obtain ⟨negated, form⟩ := phrase
  cases form with
  | onField field operand => exact solid_onField field negated operand
  | guid identifier =>
    exact solid_bracketed negated rfl rfl (fun _ => isFieldChar_of_mem_identifier identifier)
  | truthy field => exact solid_bracketed negated rfl rfl (fun _ => isFieldChar_of_mem field)
  | tag name => exact solid_bracketed negated rfl rfl (fun _ => isFieldChar_of_mem_tag name)

open Scanner

theorem hides_tail {tail : List Char} (known : tail ∈ [[], ['i'], ['>']]) : Hides {} tail {} := by
  apply hides_ordinary
  simp only [List.mem_cons, List.not_mem_nil, or_false] at known
  rcases known with rfl | rfl | rfl <;> exact List.all_eq_true.mp rfl

theorem hides_operand (operand : Operand) : Hides {} operand.text {} := by
  cases operand with
  | equal value =>
    exact .ordinary rfl (hides_quoted (body_quotedText value) false (.nil {}))
  | reference identifier =>
    have units := body_identifier identifier
    exact .cons (Or.inr (by decide)) rfl (hides_reference units (.ordinary rfl (.nil {})))
  | contain value =>
    rw [Operand.text, escape_angle_quotes, List.cons_append, List.append_assoc]
    exact .cons (Or.inr (by decide)) rfl
      (hides_quoted (body_contain value) true (.ordinary rfl (.nil {})))
  | like folded pattern =>
    have known : (if folded then ['i'] else [] : List Char) ∈ [[], ['i'], ['>']] := by
      cases folded <;> decide
    have inside := hides_quoted (body_quotedText pattern) false (hides_tail known)
    rw [Operand.text, quotedText, List.cons_append, List.append_assoc]
    exact .ordinary rfl inside
  | number orEqual value fits =>
    have sign : Hides {} (Relation.above orEqual).sign {} := by
      cases orEqual with
      | false => exact hides_ordinary (List.all_eq_true.mp rfl)
      | true => exact hides_ordinary (List.all_eq_true.mp rfl)
    exact sign.append (hides_ordinary (fun c member =>
      isOrdinary_of_isFieldChar (isFieldChar_of_mem_number member)))
  | expression orEqual chars nonempty =>
    have inside := hides_quoted (body_quotedText chars) false (.nil {})
    cases orEqual with
    | false => exact .ordinary rfl inside
    | true => exact .ordinary rfl (.ordinary rfl inside)

/-- A printed clause holds no structural parenthesis. -/
theorem hides (phrase : Phrase) : Hides {} phrase.text {} := by
  obtain ⟨negated, form⟩ := phrase
  have letters : ∀ c, isFieldChar c = true → isOrdinary c = true :=
    fun _ => isOrdinary_of_isFieldChar
  cases form with
  | onField field operand =>
    have lead := hides_ordinary (forall_lead field negated letters rfl)
    exact lead.append (hides_operand operand)
  | guid identifier =>
    have names := fun c => isFieldChar_of_mem_identifier identifier (c := c)
    have inside := hides_ordinary (forall_bracketed negated letters rfl names '\x7d' rfl)
    exact .cons (Or.inr (by decide)) rfl inside
  | truthy field =>
    have names := fun c => isFieldChar_of_mem field (c := c)
    have inside := hides_ordinary (forall_bracketed negated letters rfl names ']' rfl)
    exact .ordinary rfl inside
  | tag name =>
    have names := fun c => isFieldChar_of_mem_tag name (c := c)
    have ordinary := forall_bracketed negated letters rfl names '>' rfl
    obtain ⟨first, others, parts⟩ := List.exists_cons_of_ne_nil
      (List.append_ne_nil_of_right_ne_nil (mark negated)
        (List.append_ne_nil_of_right_ne_nil name.chars (List.cons_ne_nil '>' [])))
    simp only [text, parts]
    rw [parts] at ordinary
    obtain ⟨start, behind⟩ := List.forall_mem_cons.mp ordinary
    -- The first character behind the bracket opens no reference body.
    exact .cons (Or.inr (by decide)) rfl (.ordinary start (hides_ordinary behind))

end Phrase

end SelectorLang
