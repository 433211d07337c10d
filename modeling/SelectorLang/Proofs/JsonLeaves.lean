import SelectorLang.Json.Printer
import SelectorLang.Proofs.FormReading

set_option autoImplicit false

namespace SelectorLang

namespace Json

open Reader

/-- What can stand behind a value. -/
def Follows (tail : List Char) : Prop := ∀ c ∈ tail.head?, c = ',' ∨ c = ']' ∨ c = '\x7d'

theorem follows_nil : Follows [] := nofun

theorem follows_cons {c : Char} (closes : c = ',' ∨ c = ']' ∨ c = '\x7d') (rest : List Char) :
    Follows (c :: rest) := by
  intro d member
  cases member
  exact closes

theorem Follows.stops {tail : List Char} (follows : Follows tail) (accepts : Char → Bool)
    (refused : accepts ',' = false ∧ accepts ']' = false ∧ accepts '\x7d' = false) :
    Stops accepts tail := by
  intro c member
  rcases follows c member with rfl | rfl | rfl
  · exact refused.1
  · exact refused.2.1
  · exact refused.2.2

/-- A numeral ends where a value ends. -/
theorem frames_numeral {tail : List Char} (follows : Follows tail) : Frames tail numeral := by
  have digits : Frames tail (run1 Char.isDigit) := frames_run1 (follows.stops _ (by decide))
  have minus : Frames tail (flag '-') := frames_flag (follows.stops _ (by decide))
  have plus : Frames tail (flag '+') := frames_flag (follows.stops _ (by decide))
  have point : Frames tail (flag '.') := frames_flag (follows.stops _ (by decide))
  -- A tail that began with an exponent would be taken for the numeral's own.
  have unmarked : Stops (fun c => c == 'e' || c == 'E') tail := follows.stops _ (by decide)
  have signed : ∀ minus : Bool, Frames tail (do
      let digits ← run1 Char.isDigit
      pure (some (minus, digits)) : Reader (Option (Bool × List Char))) :=
    fun minus => digits.bind (fun _ => frames_pure _)
  have exponent := (frames_satisfy unmarked).bind (fun _ => minus.bind (fun minus =>
    Frames.ite (minus = true) (signed minus) (plus.bind (fun _ => signed minus))))
  unfold numeral
  refine minus.bind (fun negative => digits.bind (fun wholeDigits =>
    Frames.ite _ (frames_failure.bind (fun _ => ?_)) ?_))
  all_goals
    refine point.bind (fun pointed => ?_)
    refine Frames.ite (pointed = true) ((digits.map some).bind (fun fraction => ?_))
      ((frames_pure none).bind (fun fraction => ?_))
    all_goals
      refine (exponent.orElse (frames_unless unmarked none ?_ ?_)).bind (fun _ => frames_pure _)
      · rfl
      · exact fun _ _ => rfl

/-- The digits of a number that is not zero begin with none. -/
theorem head_toDigits {value : Nat} (positive : 0 < value) :
    (Nat.toDigits 10 value).head? ≠ some '0' := by
  induction value using Nat.strongRecOn with
  | ind value ih =>
    by_cases small : value < 10
    · rw [Nat.toDigits_of_lt_base small]
      have digits : ∀ digit < 10, 0 < digit →
          ([Nat.digitChar digit] : List Char).head? ≠ some '0' := by
        decide
      exact digits value small positive
    · have front := ih (value / 10) (by omega) (by omega)
      rw [Nat.toDigits_of_base_le (by decide) (by omega)]
      cases digits : Nat.toDigits 10 (value / 10) with
      | nil => exact absurd digits Nat.toDigits_ne_nil
      | cons first others =>
        rw [digits] at front
        exact front

/-- A numeral of the JSON grammar, without an exponent. -/
structure IsNumeral (numeral : Number.Numeral) : Prop where
  whole : numeral.wholeDigits ≠ [] ∧ numeral.wholeDigits.all Char.isDigit = true
  /-- There are no zeros in front. -/
  leading : numeral.wholeDigits.length = 1 ∨ numeral.wholeDigits.head? ≠ some '0'
  fraction : ∀ digits, numeral.fractionDigits = some digits →
    digits ≠ [] ∧ digits.all Char.isDigit = true
  exponent : numeral.exponent = none

theorem IsNumeral.plain {numeral : Number.Numeral} (spelled : IsNumeral numeral) :
    Clause.PlainNumeral numeral where
  whole := ⟨spelled.whole.1, all_isDecimalDigit spelled.whole.2⟩
  fraction := fun digits same =>
    ⟨(spelled.fraction digits same).1, all_isDecimalDigit (spelled.fraction digits same).2⟩
  exponent := spelled.exponent

/-- Such a numeral is read as it was written. -/
theorem numeral_numeralText {value : Number.Numeral} (spelled : IsNumeral value) :
    numeral (Clause.numeralText value) = some (value, []) := by
  have signed := Clause.flag_numeralText spelled.plain []
  obtain ⟨negative, whole, fraction, exponent⟩ := value
  obtain ⟨⟨wholeNonempty, wholeDigits⟩, leading, fractionDigits, rfl⟩ := spelled
  have zeros : ¬(whole.length ≠ 1 ∧ whole.head? = some '0') :=
    fun ⟨long, zero⟩ => leading.elim long (fun other => other zero)
  rw [List.append_nil] at signed
  rw [numeral, bind_of_some _ signed]
  cases fraction with
  | none =>
    rw [Clause.fractionText, List.nil_append,
      bind_of_some _ (run1_append wholeNonempty wholeDigits (stops_nil _)), if_neg zeros]
    rfl
  | some digits =>
    obtain ⟨nonempty, decimal⟩ := fractionDigits digits rfl
    rw [Clause.fractionText, List.cons_append,
      bind_of_some _ (run1_append wholeNonempty wholeDigits (stops_cons rfl _)), if_neg zeros]
    simp only [bind_apply, flag_cons_self, Option.bind_some, ↓reduceIte, map_apply,
      run1_append nonempty decimal (stops_nil _), Option.map_some]
    rfl

theorem isNumeral_numeralOf (value : Int) : IsNumeral (Clause.numeralOf value) where
  whole := ⟨Nat.toDigits_ne_nil, all_isDigit_toDigits value.natAbs⟩
  leading := by
    rcases Nat.eq_zero_or_pos value.natAbs with none | positive
    · left
      rw [Clause.numeralOf, none]
      rfl
    · exact Or.inr (head_toDigits positive)
  fraction := nofun
  exponent := rfl

theorem head_of_numeral {text rest : List Char} {value : Number.Numeral}
    (read : numeral text = some (value, rest)) :
    ∃ c others, text = c :: others ∧ (c = '-' ∨ c.isDigit = true) := by
  cases text with
  | nil => cases read
  | cons c others =>
    refine ⟨c, others, rfl, ?_⟩
    by_cases minus : c = '-'
    · exact Or.inl minus
    · refine Or.inr ?_
      rw [numeral, bind_of_some _ (flag_cons_other minus others)] at read
      cases digit : c.isDigit with
      | true => rfl
      | false =>
        rw [bind_of_none _ (run1_of_stops (stops_cons digit others))] at read
        cases read

end Json

/-- The number is what a reader of JSON makes of its text. -/
def Number.ReadsBack (number : Number) : Prop :=
  (Json.numeral.readAll number.text).bind Json.numberOf? = some number

instance (number : Number) : Decidable number.ReadsBack := inferInstanceAs (Decidable (_ = _))

theorem Number.readsBack_whole (value : Int)
    (fits : -0x8000_0000_0000_0000 ≤ value ∧ value < 0x1_0000_0000_0000_0000) :
    (Number.whole value fits).ReadsBack := by
  have whole : (Clause.numeralOf value).toInt? = some value := Clause.toInt?_numeralOf value
  have signless : ¬(value = 0 ∧ (Clause.numeralOf value).negative = true) := by
    rintro ⟨rfl, negative⟩
    cases negative
  rw [ReadsBack, ← Clause.numeralText_numeralOf, Reader.readAll,
    Json.numeral_numeralText (Json.isNumeral_numeralOf value)]
  simp only [Option.bind_some, Json.numberOf?, whole, signless, ↓reduceIte, ofInt?, fits, and_self,
    ↓reduceDIte]

/-- Only doubles may fail to be read back. -/
theorem Number.readsBack_of_doubles {numbers : List Number}
    (reads : ∀ value, Number.double value ∈ numbers → (Number.double value).ReadsBack) :
    ∀ number ∈ numbers, number.ReadsBack := by
  intro number member
  cases number with
  | whole value fits => exact readsBack_whole value fits
  | double value => exact reads value member

namespace Json

open Reader

theorem unitsOf_letter {mark value : Char} (known : escapeValue? mark = some value)
    (rest : List Char) :
    unitsOf ('\\' :: mark :: rest) =
      (unitsOf rest).map (fun found => (.char value :: found.1, found.2)) := by
  have other : mark ≠ 'u' := by
    rintro rfl
    cases known
  rw [unitsOf.eq_def]
  split
  · rename_i none
    cases none
  · rename_i closing
    cases closing
  · rename_i code
    exact absurd (List.cons.inj (List.cons.inj code).2).1 other
  · rename_i letter
    cases letter
    simp only [known, Option.bind_eq_bind, Option.bind_some]
    cases unitsOf rest <;> rfl
  · rename_i plain escape same
    cases same
    exact (escape mark rest rfl rfl).elim

theorem unitsOf_code {value : Nat} (control : value < 0x20) (rest : List Char) :
    unitsOf ('\\' :: 'u' :: '0' :: '0' :: hexDigit (value / 16) :: hexDigit (value % 16) :: rest) =
      (unitsOf rest).map (fun found => (.code value :: found.1, found.2)) := by
  have code : ∀ value < 0x20,
      hexCode? '0' '0' (hexDigit (value / 16)) (hexDigit (value % 16)) = some value := by decide
  rw [unitsOf, code value control]
  simp only [Option.bind_eq_bind, Option.bind_some]
  cases unitsOf rest <;> rfl

theorem charsOf?_code {value : Nat} (control : value < 0x20) (units : List StringUnit) :
    charsOf? (.code value :: units) = (charsOf? units).map (Char.ofNat value :: ·) := by
  have low : ¬(0xD800 ≤ value ∧ value < 0xE000) := by omega
  have high : ¬(0xD800 ≤ value ∧ value < 0xDC00) := by omega
  have pair : ¬(0xDC00 ≤ value ∧ value < 0xE000) := by omega
  cases units with
  | nil => simp only [charsOf?, low, ↓reduceIte, Option.map_some]
  | cons next rest => simp only [charsOf?, high, pair, ↓reduceIte]

/-- A character is written as one unit, which stands for it. -/
theorem exists_unit (c : Char) : ∃ unit,
    (∀ rest, unitsOf (escapedChar c ++ rest) =
      (unitsOf rest).map (fun found => (unit :: found.1, found.2))) ∧
    ∀ units, charsOf? (unit :: units) = (charsOf? units).map (c :: ·) := by
  have letter : ∀ mark, escapeValue? mark = some c → escapedChar c = ['\\', mark] → ∃ unit,
      (∀ rest, unitsOf (escapedChar c ++ rest) =
        (unitsOf rest).map (fun found => (unit :: found.1, found.2))) ∧
      ∀ units, charsOf? (unit :: units) = (charsOf? units).map (c :: ·) := by
    intro mark known written
    rw [written]
    exact ⟨.char c, unitsOf_letter known, fun _ => by rw [charsOf?]⟩
  by_cases quote : c = '"'
  · subst quote
    exact letter '"' rfl rfl
  by_cases backslash : c = '\\'
  · subst backslash
    exact letter '\\' rfl rfl
  by_cases backspace : c = '\x08'
  · exact letter 'b' (backspace ▸ rfl) (backspace ▸ rfl)
  by_cases tab : c = '\t'
  · exact letter 't' (tab ▸ rfl) (tab ▸ rfl)
  by_cases newline : c = '\n'
  · exact letter 'n' (newline ▸ rfl) (newline ▸ rfl)
  by_cases feed : c = '\x0c'
  · exact letter 'f' (feed ▸ rfl) (feed ▸ rfl)
  by_cases return_ : c = '\r'
  · exact letter 'r' (return_ ▸ rfl) (return_ ▸ rfl)
  by_cases control : c.toNat < 0x20
  · have written : escapedChar c =
        ['\\', 'u', '0', '0', hexDigit (c.toNat / 16), hexDigit (c.toNat % 16)] := by
      simp only [escapedChar, beq_iff_eq, quote, backslash, backspace, tab, newline, feed, return_,
        control, ↓reduceIte]
    rw [written]
    have value := charsOf?_code control
    rw [Char.ofNat_toNat] at value
    exact ⟨.code c.toNat, unitsOf_code control, value⟩
  · have written : escapedChar c = [c] := by
      simp only [escapedChar, beq_iff_eq, quote, backslash, backspace, tab, newline, feed, return_,
        control, ↓reduceIte]
    rw [written]
    exact ⟨.char c, unitsOf_visible ⟨quote, backslash, Nat.le_of_not_lt control⟩,
      fun _ => by rw [charsOf?]⟩

/-- A string is read up to its closing quote. -/
theorem stringAt_text (value : String) (rest : List Char) :
    stringAt (value.toList.flatMap escapedChar ++ '"' :: rest) = some (some value, rest) := by
  have read : ∀ chars : List Char, ∃ units,
      unitsOf (chars.flatMap escapedChar ++ '"' :: rest) = some (units, rest) ∧
        charsOf? units = some chars := by
    intro chars
    induction chars with
    | nil => exact ⟨[], by rw [List.flatMap_nil, List.nil_append, unitsOf], rfl⟩
    | cons c others ih =>
      obtain ⟨units, found, meaning⟩ := ih
      obtain ⟨unit, taken, stands⟩ := exists_unit c
      refine ⟨unit :: units, ?_, ?_⟩
      · rw [List.flatMap_cons, List.append_assoc, taken, found, Option.map_some]
      · rw [stands, meaning, Option.map_some]
  obtain ⟨units, found, meaning⟩ := read value.toList
  simp only [stringAt, found, Option.map_some, meaning, String.ofList_toList]

end Json

end SelectorLang
