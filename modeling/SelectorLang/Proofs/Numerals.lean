import SelectorLang.Proofs.Comparisons
import SelectorLang.Proofs.JsonOperands

set_option autoImplicit false

namespace SelectorLang

namespace Json

variable {numeral : Number.Numeral}

theorem numberOf?_of_fits {value : Int} (spelled : numeral.toInt? = some value)
    (signless : ¬(value = 0 ∧ numeral.negative = true))
    (fits : -0x8000_0000_0000_0000 ≤ value ∧ value < 0x1_0000_0000_0000_0000) :
    numberOf? numeral = some (.whole value fits) := by
  simp only [numberOf?, spelled, signless, ↓reduceIte, Number.ofInt?, fits, and_self, ↓reduceDIte]

/-- What is no whole number of 64 bits, and minus zero, is read in double arithmetic. -/
theorem numberOf?_of_scaled (other : ∀ value, numeral.toInt? = some value →
      -0x8000_0000_0000_0000 ≤ value ∧ value < 0x1_0000_0000_0000_0000 →
        value = 0 ∧ numeral.negative = true) :
    numberOf? numeral = numeral.toScaled?.map .double := by
  simp only [numberOf?]
  split
  · rfl
  · rename_i value spelled
    split
    · rfl
    · rename_i signless
      rw [Number.ofInt?, dif_neg (fun fits => signless (other value spelled fits))]

end Json

namespace Number.Numeral

section

variable {numeral : Numeral} {known number : Number}
  (ascii : (numeral.wholeDigits ++ numeral.fractionDigits.getD []).all Char.isDigit = true)
  (json : Json.numberOf? numeral = some known) (operand : ofOperand? numeral = some number)

include ascii json operand

/-- Whole numbers that fit with a sign are exact on both sides, save minus zero. -/
theorem same_iff_of_signed {value : Int} (spelled : numeral.toInt? = some value)
    (signed : -0x8000_0000_0000_0000 ≤ value ∧ value < 0x8000_0000_0000_0000) :
    known = number ↔ ¬(value = 0 ∧ numeral.negative = true) := by
  rw [ofOperand?_of_signed ascii spelled signed, Option.some.injEq] at operand
  by_cases minusZero : value = 0 ∧ numeral.negative = true
  · have scaled : ∀ other, numeral.toInt? = some other →
        -0x8000_0000_0000_0000 ≤ other ∧ other < 0x1_0000_0000_0000_0000 →
          other = 0 ∧ numeral.negative = true := by
      intro other same _
      rw [← Option.some.inj (spelled.symm.trans same)]
      exact minusZero
    rw [Json.numberOf?_of_scaled scaled] at json
    obtain ⟨double, _, rfl⟩ := Option.map_eq_some_iff.mp json
    rw [← operand]
    exact iff_of_false nofun (fun agrees => agrees minusZero)
  · rw [Json.numberOf?_of_fits spelled minusZero (fits_of_signed signed), Option.some.injEq] at json
    exact iff_of_true (json.symm.trans operand) minusZero

/-- Whole numbers that need all 64 bits are exact in JSON only. -/
theorem ne_of_unsigned {value : Int} (spelled : numeral.toInt? = some value)
    (unsigned : 0x8000_0000_0000_0000 ≤ value ∧ value < 0x1_0000_0000_0000_0000) :
    known ≠ number := by
  have fits : -0x8000_0000_0000_0000 ≤ value ∧ value < 0x1_0000_0000_0000_0000 := by omega
  have positive : ¬(value = 0 ∧ numeral.negative = true) := by omega
  have large : ∀ other, numeral.toInt? = some other →
      ¬(-0x8000_0000_0000_0000 ≤ other ∧ other < 0x8000_0000_0000_0000) := by
    intro other same
    rw [← Option.some.inj (spelled.symm.trans same)]
    omega
  rw [Json.numberOf?_of_fits spelled positive fits, Option.some.injEq] at json
  rw [ofOperand?_of_large ascii large] at operand
  obtain ⟨nearest, _, rfl⟩ := Option.map_eq_some_iff.mp operand
  rw [← json]
  exact nofun

theorem same_iff_of_rounded (other : ∀ value, numeral.toInt? = some value →
      ¬(-0x8000_0000_0000_0000 ≤ value ∧ value < 0x1_0000_0000_0000_0000)) :
    known = number ↔ numeral.toScaled? = numeral.toDouble? := by
  have large : ∀ value, numeral.toInt? = some value →
      ¬(-0x8000_0000_0000_0000 ≤ value ∧ value < 0x8000_0000_0000_0000) :=
    fun value spelled signed => other value spelled (fits_of_signed signed)
  rw [Json.numberOf?_of_scaled (fun value spelled fits => absurd fits (other value spelled))]
    at json
  rw [ofOperand?_of_large ascii large] at operand
  obtain ⟨double, scaled, rfl⟩ := Option.map_eq_some_iff.mp json
  obtain ⟨nearest, rounded, rfl⟩ := Option.map_eq_some_iff.mp operand
  rw [scaled, rounded, Number.double.injEq, Option.some.injEq]

/-- Both readers give one number unless the numeral is minus zero, or a whole number that needs all
64 bits, or double arithmetic does not round it to the nearest double. -/
theorem same_iff :
    known = number ↔
      ¬(numeral.toInt? = some 0 ∧ numeral.negative = true) ∧
      (∀ value, numeral.toInt? = some value →
        ¬(0x8000_0000_0000_0000 ≤ value ∧ value < 0x1_0000_0000_0000_0000)) ∧
      ((∀ value, numeral.toInt? = some value →
          ¬(-0x8000_0000_0000_0000 ≤ value ∧ value < 0x8000_0000_0000_0000)) →
        numeral.toScaled? = numeral.toDouble?) := by
  by_cases fits : ∃ value, numeral.toInt? = some value ∧
      -0x8000_0000_0000_0000 ≤ value ∧ value < 0x1_0000_0000_0000_0000
  · obtain ⟨value, spelled, range⟩ := fits
    simp only [spelled, Option.some.injEq, forall_eq']
    by_cases unsigned : 0x8000_0000_0000_0000 ≤ value
    · have differs := ne_of_unsigned ascii json operand spelled ⟨unsigned, range.2⟩
      exact iff_of_false differs (fun agrees => agrees.2.1 ⟨unsigned, range.2⟩)
    · have signed : -0x8000_0000_0000_0000 ≤ value ∧ value < 0x8000_0000_0000_0000 := by omega
      rw [same_iff_of_signed ascii json operand spelled signed]
      exact ⟨fun agrees => ⟨agrees, fun wide => unsigned wide.1, fun large => absurd signed large⟩,
        And.left⟩
  · have other : ∀ value, numeral.toInt? = some value →
        ¬(-0x8000_0000_0000_0000 ≤ value ∧ value < 0x1_0000_0000_0000_0000) :=
      fun value spelled range => fits ⟨value, spelled, range⟩
    rw [same_iff_of_rounded ascii json operand other]
    constructor
    · intro rounds
      refine ⟨fun zero => other 0 zero.1 (by decide), ?_, fun _ => rounds⟩
      intro value spelled unsigned
      exact other value spelled ⟨by omega, unsigned.2⟩
    · rintro ⟨_, _, rounds⟩
      exact rounds (fun value spelled signed => other value spelled (fits_of_signed signed))

end

variable {numeral : Numeral}

theorem ascii_of_isNumeral (spelled : Json.IsNumeral numeral) :
    (numeral.wholeDigits ++ numeral.fractionDigits.getD []).all Char.isDigit = true := by
  rw [List.all_append, spelled.whole.2, Bool.true_and]
  cases fraction : numeral.fractionDigits with
  | none => rfl
  | some digits => exact (spelled.fraction digits fraction).2

theorem exists_numberOf? (finite : numeral.toScaled? ≠ none) :
    ∃ known, Json.numberOf? numeral = some known := by
  obtain ⟨double, scaled⟩ := Option.ne_none_iff_exists'.mp finite
  simp only [Json.numberOf?, scaled, Option.map_some]
  split
  · exact ⟨_, rfl⟩
  · split
    · exact ⟨_, rfl⟩
    · split <;> exact ⟨_, rfl⟩

theorem exists_ofOperand?
    (ascii : (numeral.wholeDigits ++ numeral.fractionDigits.getD []).all Char.isDigit = true)
    (plain : numeral.exponent = none) (bounded : ¬numeral.Overflows) :
    ∃ number, ofOperand? numeral = some number := by
  cases found : ofOperand? numeral with
  | some number => exact ⟨number, rfl⟩
  | none =>
    cases (denotes_iff ascii plain none).mpr found with
    | infinite overflows => exact absurd overflows bounded

end Number.Numeral

namespace Clause

def equalText (field : FieldName) (negated : Bool) (operand : List Char) : List Char :=
  field.chars ++ mark negated ++ '=' :: operand

theorem isDigit_of_mem_numeralText {numeral : Number.Numeral} (spelled : Json.IsNumeral numeral) :
    ∀ c ∈ numeralText numeral, c.isDigit = true ∨ c = '-' ∨ c = '.' := by
  have digits : ∀ {part : List Char}, part.all Char.isDigit = true →
      ∀ c ∈ part, c.isDigit = true ∨ c = '-' ∨ c = '.' :=
    fun all c member => Or.inl (List.all_eq_true.mp all c member)
  refine List.forall_mem_append.mpr ⟨List.forall_mem_append.mpr ⟨?_, digits spelled.whole.2⟩, ?_⟩
  · intro c member
    split at member
    · exact Or.inr (Or.inl (List.mem_singleton.mp member))
    · cases member
  · cases fraction : numeral.fractionDigits with
    | none => exact nofun
    | some part =>
      exact List.forall_mem_cons.mpr
        ⟨Or.inr (Or.inr rfl), digits (spelled.fraction part fraction).2⟩

theorem bareOperand_numeralText {numeral : Number.Numeral} (spelled : Json.IsNumeral numeral)
    (relation : Relation) : BareOperand relation (numeralText numeral) where
  nonempty := by
    intro empty
    exact spelled.whole.1 (List.append_eq_nil_iff.mp (List.append_eq_nil_iff.mp empty).1).2
  wellFormed := by
    apply List.all_eq_true.mpr
    intro c member
    rcases isDigit_of_mem_numeralText spelled c member with digit | rfl | rfl
    · have range := toNat_of_isDigit digit
      exact isOperandChar_iff.mpr
        ⟨⟨by omega, by omega⟩, fun sign => List.any_eq_false.mp rfl c sign digit⟩
    · rfl
    · rfl
  begins := by
    intro _ same
    have member := List.mem_of_mem_head? same
    rcases isDigit_of_mem_numeralText spelled '=' member with digit | minus | point
    · cases digit
    · cases minus
    · cases point

end Clause

namespace Compiler

open Clause

theorem compile_equalText (compiler : Compiler) (cls : EntityClass) (field : FieldName)
    (negated : Bool) {relation : Relation} {operand : List Char}
    (bare : BareOperand relation operand) :
    compiler.compile (String.ofList (equalText field negated operand)) cls =
      clauseQuery cls [⟨negated, .equal (String.ofList field.chars) (valueOf operand)⟩] := by
  have unquoted : operand.head? ≠ some '"' :=
    fun first => bare.plain '"' (List.mem_of_mem_head? first) (by decide)
  have groupless : (split (equalText field negated operand)).groups = [] := by
    have lead : '(' ∉ field.chars ++ mark negated :=
      Phrase.not_mem_lead field negated rfl (by decide)
    have own : '(' ∉ operand := fun member => bare.plain '(' member (by decide)
    apply groups_of_not_mem
    rw [equalText, List.mem_append, List.mem_cons, not_or, not_or]
    exact ⟨lead, by decide, own⟩
  have dark : ∀ c ∈ equalText field negated operand, isBlank c = false :=
    List.forall_mem_append.mpr
      ⟨Phrase.forall_lead field negated (fun _ => isBlank_of_isFieldChar) rfl,
      List.forall_mem_cons.mpr ⟨rfl, bare.dark⟩⟩
  have free :=
    Directive.extract_of_free (Directive.free_of_word field negated rfl rfl dark) cls.name
  have references : Piece.tokens (Token.scan (subquery (compiler.embed
      (compiler.innerAt Selector.simplify compiler.maxDepth cls)))
        (equalText field negated operand)) = [] :=
    Token.tokens_of_not_occurs (Token.not_occurs_of_word dark
      (unread_sign field negated rfl (by decide) rfl _))
  have order : Stage.placed (Stage.all (compiler.embed
      (compiler.innerAt Selector.simplify compiler.maxDepth cls))) =
        [⟨"qref", 0, subquery _⟩] ++ ⟨"equal", 0, equal⟩ ::
          (Stage.placed (Stage.all (compiler.embed
            (compiler.innerAt Selector.simplify compiler.maxDepth cls)))).drop 2 := rfl
  exact compiler.compile_of_whole cls groupless free (Phrase.lead_ne_nil field negated _) order
    (List.forall_mem_singleton.mpr references)
    (equal_of_dark field negated bare.nonempty unquoted bare.dark)

/-- What an equality and a comparison make of the same numeral. The two numbers are the same unless
the numeral is minus zero, or a whole number from `2 ^ 63` to `2 ^ 64 - 1`, or one that is not exact
and that double arithmetic does not round to the nearest double. -/
theorem compile_numeral (compiler : Compiler) (cls : EntityClass) (relation : Relation)
    (field : FieldName) (negated : Bool) {numeral : Number.Numeral}
    (spelled : Json.IsNumeral numeral)
    (finite : numeral.toScaled? ≠ none) (bounded : ¬numeral.Overflows) :
    ∃ known number, Json.numberOf? numeral = some known ∧ Number.ofOperand? numeral = some number ∧
      compiler.compile (String.ofList (equalText field negated (numeralText numeral))) cls =
        ⟨{ className := cls.name },
          [{ kind := .allOf
             clauses :=
              { equal := ({} : Signed (String × Json)).add negated
                  (String.ofList field.chars, .number known) } }]⟩ ∧
      compiler.compile (String.ofList (orderText relation field negated (numeralText numeral)))
          cls =
        comparisonQuery cls relation negated (some (.absolute (String.ofList field.chars) number)) ∧
      (known = number ↔
        ¬(numeral.toInt? = some 0 ∧ numeral.negative = true) ∧
        (∀ value, numeral.toInt? = some value →
          ¬(0x8000_0000_0000_0000 ≤ value ∧ value < 0x1_0000_0000_0000_0000)) ∧
        ((∀ value, numeral.toInt? = some value →
            ¬(-0x8000_0000_0000_0000 ≤ value ∧ value < 0x8000_0000_0000_0000)) →
          numeral.toScaled? = numeral.toDouble?)) := by
  have ascii := Number.Numeral.ascii_of_isNumeral spelled
  have bare := bareOperand_numeralText spelled relation
  obtain ⟨known, json⟩ := Number.Numeral.exists_numberOf? finite
  obtain ⟨number, operand⟩ := Number.Numeral.exists_ofOperand? ascii spelled.exponent bounded
  have value : valueOf (numeralText numeral) = .number known := by
    rw [valueOf, Json.ofText?_numeralText spelled, json]
    rfl
  have equality := compiler.compile_equalText cls field negated bare
  have comparison := compiler.compile_absolute cls field negated spelled.plain bare
  rw [value] at equality
  rw [operand, Option.map_some] at comparison
  exact ⟨known, number, json, operand, equality, comparison,
    Number.Numeral.same_iff ascii json operand⟩

def largestWord : Number.Numeral := ⟨false, "18446744073709551615".toList, none, none⟩

def minusZero : Number.Numeral := ⟨true, ['0'], none, none⟩

/-- `f=18446744073709551615` is exact and `f>18446744073709551615` compares with `2 ^ 64`; `f=-0` is
minus zero and `f<-0` compares with zero. -/
theorem compile_numeral_apart :
    ((Json.IsNumeral largestWord ∧ largestWord.toScaled? ≠ none ∧ ¬largestWord.Overflows) ∧
      ({} : Compiler).compile
          (String.ofList (equalText ⟨['f'], by decide, rfl⟩ false (numeralText largestWord)))
          ⟨"User", []⟩ =
        ⟨{ className := "User" }, [{ kind := .allOf, clauses :=
          { equal := ⟨[("f", .number (.whole 18446744073709551615 (by decide)))], []⟩ } }]⟩ ∧
      ({} : Compiler).compile
          (String.ofList
            (orderText .greater ⟨['f'], by decide, rfl⟩ false (numeralText largestWord)))
          ⟨"User", []⟩ =
        ⟨{ className := "User" }, [{ kind := .allOf, clauses :=
          { greater :=
            ⟨[.absolute "f" (.double ⟨false, 0x43f0_0000_0000_0000, by decide⟩)], []⟩ } }]⟩) ∧
    (Json.IsNumeral minusZero ∧ minusZero.toScaled? ≠ none ∧ ¬minusZero.Overflows) ∧
      ({} : Compiler).compile
          (String.ofList (equalText ⟨['f'], by decide, rfl⟩ false (numeralText minusZero)))
          ⟨"User", []⟩ =
        ⟨{ className := "User" }, [{ kind := .allOf, clauses :=
          { equal := ⟨[("f", .number (.double ⟨true, 0, by decide⟩))], []⟩ } }]⟩ ∧
      ({} : Compiler).compile
          (String.ofList (orderText .less ⟨['f'], by decide, rfl⟩ false (numeralText minusZero)))
          ⟨"User", []⟩ =
        ⟨{ className := "User" }, [{ kind := .allOf, clauses :=
          { less := ⟨[.absolute "f" (.whole 0 (by decide))], []⟩ } }]⟩ := by
  constructor
  · have spelled : Json.IsNumeral largestWord := ⟨by decide, Or.inr (by decide), nofun, rfl⟩
    have finite : largestWord.toScaled? ≠ none := by decide +kernel
    have bounded : ¬largestWord.Overflows := by decide +kernel
    obtain ⟨known, number, json, operand, equality, comparison, _⟩ :=
      compile_numeral {} ⟨"User", []⟩ .greater ⟨['f'], by decide, rfl⟩ false spelled finite bounded
    have exact : Json.numberOf? largestWord = some (.whole 18446744073709551615 (by decide)) := by
      decide +kernel
    have rounded : Number.ofOperand? largestWord =
        some (.double ⟨false, 0x43f0_0000_0000_0000, by decide⟩) := by
      decide +kernel
    rw [← Option.some.inj (exact.symm.trans json)] at equality
    rw [← Option.some.inj (rounded.symm.trans operand)] at comparison
    exact ⟨⟨spelled, finite, bounded⟩, equality, comparison⟩
  · have spelled : Json.IsNumeral minusZero := ⟨by decide, Or.inl rfl, nofun, rfl⟩
    have finite : minusZero.toScaled? ≠ none := by decide +kernel
    have bounded : ¬minusZero.Overflows := by decide +kernel
    obtain ⟨known, number, json, operand, equality, comparison, _⟩ :=
      compile_numeral {} ⟨"User", []⟩ .less ⟨['f'], by decide, rfl⟩ false spelled finite bounded
    have signed : Json.numberOf? minusZero = some (.double ⟨true, 0, by decide⟩) := by
      decide +kernel
    have unsigned : Number.ofOperand? minusZero = some (.whole 0 (by decide)) := by decide +kernel
    rw [← Option.some.inj (signed.symm.trans json)] at equality
    rw [← Option.some.inj (unsigned.symm.trans operand)] at comparison
    exact ⟨⟨spelled, finite, bounded⟩, equality, comparison⟩

end Compiler

end SelectorLang
