import SelectorLang.Proofs.Hiding
import SelectorLang.Proofs.JsonValues
import SelectorLang.Proofs.LoneTokens

set_option autoImplicit false

namespace SelectorLang

def isNumeralChar (c : Char) : Bool :=
  c.isDigit || c == '-' || c == '+' || c == '.' || c == 'e'

theorem isOrdinary_of_isNumeralChar {c : Char} (numeral : isNumeralChar c = true) :
    Scanner.isOrdinary c = true :=
  Scanner.isOrdinary_of_accepted rfl numeral

theorem isNumeralChar_of_mem_toDigits (value : Nat) :
    ∀ c ∈ Nat.toDigits 10 value, isNumeralChar c = true := by
  intro c member
  simp only [isNumeralChar, Nat.isDigit_of_mem_toDigits (by decide) (Nat.le_refl 10) member,
    Bool.true_or]

theorem Double.isNumeralChar_of_mem_text (double : Double) :
    ∀ c ∈ double.text, isNumeralChar c = true := by
  have sign : ∀ c ∈ (if double.negative then ['-'] else []), isNumeralChar c = true := by
    split <;> exact List.all_eq_true.mp rfl
  have digits : ∀ {decimal : Decimal} {part : List Char}, part.Sublist decimal.digitText →
      ∀ c ∈ part, isNumeralChar c = true := by
    intro decimal part within c member
    have listed := (List.dropWhile_sublist _).mem (List.mem_reverse.mp (within.mem member))
    exact isNumeralChar_of_mem_toDigits _ c (List.mem_reverse.mp listed)
  have zeros : ∀ count, ∀ c ∈ List.replicate count '0', isNumeralChar c = true := by
    intro count c member
    rw [(List.mem_replicate.mp member).2]
    rfl
  simp only [Double.text]
  split
  · exact List.forall_mem_append.mpr ⟨sign, List.all_eq_true.mp rfl⟩
  refine List.forall_mem_append.mpr ⟨sign, ?_⟩
  split
  · -- one digit, the others behind a point, the exponent
    refine List.forall_mem_append.mpr ⟨List.forall_mem_append.mpr ⟨?_, ?_⟩, ?_⟩
    · exact digits (List.take_sublist _ _)
    · split
      · exact List.all_eq_true.mp rfl
      · exact List.forall_mem_cons.mpr ⟨rfl, digits (List.drop_sublist _ _)⟩
    · refine List.forall_mem_cons.mpr ⟨rfl, List.forall_mem_cons.mpr ⟨?_, ?_⟩⟩
      · split <;> rfl
      · exact isNumeralChar_of_mem_toDigits _
  split
  · refine List.forall_mem_cons.mpr ⟨rfl, List.forall_mem_cons.mpr ⟨rfl, ?_⟩⟩
    exact List.forall_mem_append.mpr ⟨zeros _, digits (List.Sublist.refl _)⟩
  · refine List.forall_mem_append.mpr ⟨List.forall_mem_append.mpr ⟨?_, zeros _⟩, ?_⟩
    · exact digits (List.take_sublist _ _)
    · refine List.forall_mem_cons.mpr ⟨rfl, ?_⟩
      split
      · exact List.all_eq_true.mp rfl
      · exact digits (List.drop_sublist _ _)

theorem Number.isNumeralChar_of_mem_text (number : Number) :
    ∀ c ∈ number.text, isNumeralChar c = true := by
  cases number with
  | double value => exact value.isNumeralChar_of_mem_text
  | whole value fits =>
    cases value with
    | ofNat size => exact isNumeralChar_of_mem_toDigits size
    | negSucc size =>
      exact List.forall_mem_cons.mpr ⟨rfl, isNumeralChar_of_mem_toDigits (size + 1)⟩

namespace Json

/-- Every quote and every backslash in the text of a string stands behind a backslash. -/
theorem body_escapedChar (c : Char) : Body (· == '"') (escapedChar c) := by
  have letter : ∀ mark, mark ≠ '\n' → Body (· == '"') ['\\', mark] :=
    fun mark taken => .pair mark [] taken .nil
  have hexadecimal : ∀ value < 0x20, ∀ d ∈ ['0', '0', hexDigit (value / 16), hexDigit (value % 16)],
      d ≠ '\\' ∧ (d == '"') = false := by
    have shown : ∀ value < 0x20, ['0', '0', hexDigit (value / 16), hexDigit (value % 16)].all
        (fun d => d != '\\' && d != '"') = true := by
      decide
    intro value control d member
    simpa using List.all_eq_true.mp (shown value control) d member
  by_cases quote : c = '"'
  · subst quote
    exact letter '"' (by decide)
  by_cases backslash : c = '\\'
  · subst backslash
    exact letter '\\' (by decide)
  rw [escapedChar, if_neg (by simpa using quote), if_neg (by simpa using backslash)]
  repeat' split
  any_goals exact letter _ (by decide)
  · rename_i control
    exact .pair 'u' _ (by decide) (.of_all (hexadecimal c.toNat control))
  · exact .plain c [] backslash (beq_eq_false_iff_ne.mpr quote) .nil

theorem body_string (value : List Char) : Body (· == '"') (value.flatMap escapedChar) := by
  induction value with
  | nil => exact .nil
  | cons c rest ih => exact (body_escapedChar c).append ih

theorem hides_stringText (value : String) : Scanner.Hides {} (stringText value) {} :=
  Scanner.hides_quoted (body_string value.toList) false (.nil {})

mutual

/-- The text of a value holds no structural parenthesis, and behind it the scanner is where it was
in front of it. -/
theorem hides_text (value : Json) : Scanner.Hides {} (text value) {} := by
  cases value with
  | null => exact Scanner.hides_ordinary (List.all_eq_true.mp rfl)
  | bool value => cases value <;> exact Scanner.hides_ordinary (List.all_eq_true.mp rfl)
  | number value =>
    exact Scanner.hides_ordinary
      (fun c member => isOrdinary_of_isNumeralChar (value.isNumeralChar_of_mem_text c member))
  | string value => exact hides_stringText value
  | array items =>
    have closing : Scanner.Hides {} [']'] {} := .ordinary rfl (.nil {})
    exact .ordinary rfl ((hides_itemsText items).append closing)
  | object members =>
    -- A brace that no bracket stands in front of begins no reference.
    have closing : Scanner.Hides {} ['\x7d'] {} := .ordinary rfl (.nil {})
    exact .cons (Or.inr (by decide)) rfl ((hides_membersText members).append closing)
termination_by structural value

theorem hides_itemsText (items : List Json) : Scanner.Hides {} (itemsText items) {} := by
  match items with
  | [] => exact .nil {}
  | [item] => exact hides_text item
  | item :: next :: rest =>
    rw [itemsText]
    exact (hides_text item).append (.ordinary rfl (hides_itemsText (next :: rest)))
termination_by structural items

theorem hides_membersText (members : List (String × Json)) :
    Scanner.Hides {} (membersText members) {} := by
  match members with
  | [] => exact .nil {}
  | [(key, value)] =>
    rw [membersText]
    exact (hides_stringText key).append (.ordinary rfl (hides_text value))
  | (key, value) :: next :: rest =>
    rw [membersText]
    have others := hides_membersText (next :: rest)
    exact (hides_stringText key).append
      (.ordinary rfl ((hides_text value).append (.ordinary rfl others)))
termination_by structural members

end

/-- Only strings begin with a quote. -/
theorem head_text_of_no_string {value : Json} (other : value.toString? = none)
    (reads : ∀ number ∈ value.numbers, number.ReadsBack) :
    ∃ c others, text value = c :: others ∧ c ≠ '"' := by
  cases value with
  | null => exact ⟨_, _, rfl, by decide⟩
  | bool value => cases value <;> exact ⟨_, _, rfl, by decide⟩
  | string value => cases other
  | array items => exact ⟨_, _, rfl, by decide⟩
  | object members => exact ⟨_, _, rfl, by decide⟩
  | number value =>
    obtain ⟨c, others, parts, _⟩ := head_text (.number value) reads
    have own := value.isNumeralChar_of_mem_text
    rw [text] at parts
    rw [parts] at own
    exact ⟨c, others, parts, Reader.ne_of_accepted (own c List.mem_cons_self) rfl⟩

end Json

/-- A query text with nothing but an equality with a value that has no quotes around it. -/
def jsonText (field : FieldName) (negated : Bool) (value : Json) : List Char :=
  field.chars ++ Clause.mark negated ++ '=' :: value.text

section

variable (field : FieldName) (negated : Bool) {value : Json}

theorem dark_jsonText (dark : ∀ c ∈ value.text, isBlank c = false) :
    ∀ c ∈ jsonText field negated value, isBlank c = false :=
  List.forall_mem_append.mpr
    ⟨Phrase.forall_lead field negated (fun _ => isBlank_of_isFieldChar) rfl,
      List.forall_mem_cons.mpr ⟨rfl, dark⟩⟩

theorem groups_jsonText (value : Json) : (split (jsonText field negated value)).groups = [] := by
  have lead := Scanner.hides_ordinary (Phrase.forall_lead field negated
    (fun _ => Scanner.isOrdinary_of_isFieldChar) rfl)
  have hides : Scanner.Hides {} (jsonText field negated value) {} :=
    lead.append (.ordinary rfl (Json.hides_text value))
  rw [Scanner.split_of_hides hides]

namespace Clause

/-- An equality with an operand without quotes says the value that the operand spells. -/
theorem equal_of_dark {operand : List Char} (nonempty : operand ≠ [])
    (unquoted : operand.head? ≠ some '"') (dark : ∀ c ∈ operand, isBlank c = false) :
    equal (field.chars ++ mark negated ++ '=' :: operand) =
      some (some ⟨negated, .equal (String.ofList field.chars) (valueOf operand)⟩, []) := by
  obtain ⟨c, others, rfl⟩ := List.exists_cons_of_ne_nil nonempty
  have other : c ≠ '"' := fun same => unquoted (congrArg some same)
  have read := plainOperand_of_dark (fun _ => true) rfl other dark
  have unread : Reader.quoted (c :: others) = none :=
    Reader.bind_of_none _ (Reader.exactly_of_ne other.symm [] others)
  rw [equal, Reader.bind_of_some _ (target_append field negated rfl (by decide) _),
    Reader.bind_of_some _ (Reader.exactly_singleton '=' (c :: others))]
  simp only [Reader.bind_apply, Reader.orElse_apply, unread, read, Option.bind_none,
    Option.none_or, Option.bind_some, Reader.pure_apply, onField]

theorem equal_jsonText (other : value.toString? = none)
    (dark : ∀ c ∈ value.text, isBlank c = false) (ordered : value.Ordered)
    (reads : ∀ number ∈ value.numbers, number.ReadsBack)
    (nesting : value.nesting ≤ Json.maxNesting) :
    equal (jsonText field negated value) =
      some (some ⟨negated, .equal (String.ofList field.chars) value⟩, []) := by
  obtain ⟨c, others, parts, unquoted⟩ := Json.head_text_of_no_string other reads
  have meaning : valueOf value.text = value := by
    have read := Json.ofText?_compact value ordered reads
    rw [if_pos nesting, Json.compact, String.toList_ofList] at read
    rw [valueOf, read]
    rfl
  have nonempty : value.text ≠ [] := by
    rw [parts]
    exact List.cons_ne_nil c others
  have head : value.text.head? ≠ some '"' := by
    rw [parts]
    exact fun same => unquoted (Option.some.inj same)
  rw [jsonText, equal_of_dark field negated nonempty head dark, meaning]

end Clause

/-- A value that is no string, in compact JSON without blanks, is what an equality with that text
asks for, and nothing else comes of the text, whatever the strings in the value hold. -/
theorem Compiler.compile_jsonText (compiler : Compiler) (cls : EntityClass)
    (other : value.toString? = none) (dark : ∀ c ∈ value.text, isBlank c = false)
    (ordered : value.Ordered)
    (reads : ∀ double, Number.double double ∈ value.numbers → (Number.double double).ReadsBack)
    (nesting : value.nesting ≤ 127) :
    compiler.compile (String.ofList (jsonText field negated value)) cls =
      ⟨{ className := cls.name },
        [{ kind := .allOf
           clauses :=
            { equal := ({} : Signed (String × Json)).add negated
                (String.ofList field.chars, value) } }]⟩ := by
  have free := Directive.extract_of_free
    (Directive.free_of_word field negated rfl rfl (dark_jsonText field negated dark)) cls.name
  have references : Piece.tokens (Token.scan (Clause.subquery (compiler.embed
      (compiler.innerAt Selector.simplify compiler.maxDepth cls)))
        (jsonText field negated value)) = [] :=
    Token.tokens_of_not_occurs (Token.not_occurs_of_word (dark_jsonText field negated dark)
      (Clause.unread_sign field negated rfl (by decide) rfl _))
  have order : Stage.placed (Stage.all (compiler.embed
      (compiler.innerAt Selector.simplify compiler.maxDepth cls))) =
        [⟨"qref", 0, Clause.subquery _⟩] ++ ⟨"equal", 0, Clause.equal⟩ ::
          (Stage.placed (Stage.all (compiler.embed
            (compiler.innerAt Selector.simplify compiler.maxDepth cls)))).drop 2 := rfl
  rw [compiler.compile_of_whole cls (groups_jsonText field negated value) free
    (Phrase.lead_ne_nil field negated _) order (List.forall_mem_singleton.mpr references)
    (Clause.equal_jsonText field negated other dark ordered
      (Number.readsBack_of_doubles reads) nesting)]
  rfl

end

def Double.minusHalf : Double := ⟨true, 0x3fe0_0000_0000_0000, by decide⟩

/-- An object whose strings hold quotes, parentheses, brackets, a reference and operators. -/
def Json.bracketed : Json :=
  .object
    [("(<\x7b", .array [.number (.double .minusHalf), .string "a\")b=\"c\\", .bool true]),
     ("x<\x7bUser(y~z\x7d>", .null)]

theorem Compiler.compile_jsonText_bracketed :
    (Json.bracketed.toString? = none ∧ (∀ c ∈ Json.bracketed.text, isBlank c = false) ∧
      Json.bracketed.Ordered ∧ (Number.double .minusHalf).ReadsBack ∧
      Json.bracketed.nesting ≤ 127) ∧
    ({} : Compiler).compile (String.ofList (jsonText ⟨['f'], by decide, rfl⟩ true Json.bracketed))
        ⟨"User", []⟩ =
      ⟨{ className := "User" },
        [{ kind := .allOf, clauses := { equal := ⟨[], [("f", Json.bracketed)]⟩ } }]⟩ := by
  have shown : Json.bracketed.text.all (fun c => !isBlank c) = true := by decide +kernel
  have dark : ∀ c ∈ Json.bracketed.text, isBlank c = false :=
    fun c member => (Bool.not_eq_true' _).mp (List.all_eq_true.mp shown c member)
  have ordered : Json.bracketed.Ordered :=
    ⟨by decide +kernel, ⟨trivial, trivial, trivial, trivial⟩, trivial, trivial⟩
  have reads : (Number.double .minusHalf).ReadsBack := by decide +kernel
  have nesting : Json.bracketed.nesting ≤ 127 := by decide +kernel
  refine ⟨⟨rfl, dark, ordered, reads, nesting⟩, ?_⟩
  apply Compiler.compile_jsonText ⟨['f'], by decide, rfl⟩ true {} ⟨"User", []⟩ rfl dark ordered ?_
    nesting
  intro double member
  have numbers : Json.bracketed.numbers = [.double .minusHalf] := rfl
  rw [numbers, List.mem_singleton, Number.double.injEq] at member
  rw [member]
  exact reads

end SelectorLang
