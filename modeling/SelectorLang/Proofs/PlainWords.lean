import SelectorLang.Proofs.FormReading
import SelectorLang.Proofs.Passes

set_option autoImplicit false

namespace SelectorLang

/-- The characters that begin or carry on a literal, a group, a clause or a directive, and the
wildcards of patterns. -/
def reserved : List Char :=
  ['"', '\\', '(', ')', '<', '>', '=', '~', '\x7b', '[', ':', '%', '_']

def isPlain (c : Char) : Bool := !isBlank c && !reserved.contains c

structure PlainWord where
  chars : List Char
  nonempty : chars ≠ []
  wellFormed : chars.all isPlain = true

theorem isBlank_of_isPlain {c : Char} (plain : isPlain c = true) : isBlank c = false := by
  rw [isPlain, Bool.and_eq_true, Bool.not_eq_true'] at plain
  exact plain.1

/-- Every word character but the underscore is plain: letters and digits of all scripts are. -/
theorem isPlain_of_isWordChar {c : Char} (letter : isWordChar c = true) (other : c ≠ '_') :
    isPlain c = true := by
  have outside : reserved.all (fun sign => sign == '_' || !isWordChar sign) = true := by decide
  have absent : reserved.contains c = false := by
    rw [List.contains_eq_mem, decide_eq_false_iff_not]
    intro member
    have refused := List.all_eq_true.mp outside c member
    rw [letter, beq_eq_false_iff_ne.mpr other] at refused
    cases refused
  rw [isPlain, isBlank_of_isFieldChar (isFieldChar_of_isWordChar letter), absent]
  rfl

def PlainWord.ofLetters (chars : List Char) (nonempty : chars ≠ [])
    (letters : chars.all (fun c => isWordChar c && c != '_') = true) : PlainWord where
  chars := chars
  nonempty := nonempty
  wellFormed := by
    rw [List.all_eq_true] at letters ⊢
    intro c member
    have own := letters c member
    rw [Bool.and_eq_true, bne_iff_ne] at own
    exact isPlain_of_isWordChar own.1 own.2

namespace Reader

/-- Where what is read has no blanks, a sign that is missing in the first word does not come
next. -/
theorem stops_behind {word after lexeme rest : List Char} (parts : word ++ after = lexeme ++ rest)
    (ends : Token.endsWord after = true) (dark : ∀ c ∈ lexeme, isBlank c = false) {sign : Char}
    (shown : isBlank sign = false) (absent : sign ∉ word) : Stops (· == sign) rest := by
  have behind : Stops (· == sign) after := stops_mark_of_endsWord shown ends
  rcases List.append_eq_append_iff.mp parts with ⟨more, read, left⟩ | ⟨more, read, left⟩
  · cases more with
    | nil => rwa [left, List.nil_append] at behind
    | cons c others =>
      rw [left] at ends
      have blank : isBlank c = true := ends
      have member : c ∈ lexeme := by
        rw [read]
        exact List.mem_append_right word List.mem_cons_self
      rw [dark c member] at blank
      cases blank
  · cases more with
    | nil => rwa [left]
    | cons c others =>
      rw [left]
      apply stops_cons_ne
      rintro rfl
      apply absent
      rw [read]
      exact List.mem_append_right lexeme List.mem_cons_self

end Reader

namespace PlainWord

open Reader Clause Token

variable (word : PlainWord)

theorem plain : ∀ c ∈ word.chars, isPlain c = true := List.all_eq_true.mp word.wellFormed

theorem dark : ∀ c ∈ word.chars, isBlank c = false :=
  fun c member => isBlank_of_isPlain (word.plain c member)

theorem not_mem {sign : Char} (other : isPlain sign = false) : sign ∉ word.chars :=
  not_mem_of_all word.wellFormed other

theorem solid : Solid word.chars := by
  apply solid_of_bare word.nonempty
  intro c member
  have differs : ∀ d, isPlain d = false → c ≠ d := fun _ => ne_of_accepted (word.plain c member)
  exact isBare_iff.mpr ⟨word.dark c member, differs '~' rfl, differs '"' rfl⟩

theorem hides : Scanner.Hides {} word.chars {} :=
  Scanner.hides_ordinary (fun c member => Scanner.isOrdinary_of_accepted rfl (word.plain c member))

section

variable {α : Type} (sign : Char) (others : List Char)

/-- A token with a bracket in front is no plain word. -/
theorem refuses_bracket (shown : isBlank sign = false) (other : isPlain sign = false)
    (next : Unit → Reader α) : Refuses (exactly (sign :: others) >>= next) word.chars := by
  intro after ends
  have parts : word.chars ++ after = [] ++ (word.chars ++ after) := rfl
  have stops := stops_behind parts ends nofun shown (word.not_mem other)
  exact bind_of_none _ (exactly_of_stops stops)

/-- A token with a field and a sign in front is no plain word. -/
theorem refuses_operator (shown : isBlank sign = false) (other : isPlain sign = false)
    (next : String × Bool → Unit → Reader α) :
    Refuses (target >>= fun subject => exactly (sign :: others) >>= next subject) word.chars := by
  intro after ends
  cases subject : target (word.chars ++ after) with
  | none => exact bind_of_none _ subject
  | some found =>
    obtain ⟨lexeme, parts, field, shape, _⟩ := takes_target _ found.1 found.2 subject
    have dark : ∀ c ∈ lexeme, isBlank c = false := by
      rw [shape]
      exact Phrase.forall_lead field found.1.2 (fun _ => isBlank_of_isFieldChar) rfl
    have stops := stops_behind parts ends dark shown (word.not_mem other)
    rw [bind_of_some _ subject]
    exact bind_of_none _ (exactly_of_stops stops)

end

/-- No pass takes a plain word. -/
theorem refuses_readers (embed : List Char → List Char → Option Query) :
    ∀ pass ∈ Stage.placed (Stage.all embed), Refuses pass.reader word.chars := by
  have relations : ∀ relation : Relation, ∃ sign others, relation.sign = sign :: others ∧
      isBlank sign = false ∧ isPlain sign = false := by
    intro relation
    cases relation <;> exact ⟨_, _, rfl, rfl, rfl⟩
  apply Stage.forall_placed
  · exact word.refuses_operator '<' ['\x7b'] rfl rfl _
  · exact word.refuses_operator '=' [] rfl rfl _
  · exact word.refuses_operator '<' ['\x7b'] rfl rfl _
  · exact word.refuses_operator '<' [] rfl rfl _
  · exact word.refuses_operator '~' [] rfl rfl _
  · exact word.refuses_operator '~' [] rfl rfl _
  · exact word.refuses_bracket '\x7b' [] rfl rfl _
  · exact word.refuses_bracket '[' [] rfl rfl _
  · exact word.refuses_bracket '<' [] rfl rfl _
  · intro relation
    obtain ⟨sign, others, shape, shown, other⟩ := relations relation
    simp only [absolute, shape]
    exact word.refuses_operator sign others shown other _
  · intro relation
    obtain ⟨sign, others, shape, shown, other⟩ := relations relation
    simp only [relative, shape]
    exact word.refuses_operator sign others shown other _

theorem refuses_colon {α : Type} (name : List Char) (wellFormed : name.all isFieldChar = true)
    (next : Unit → Reader α) : Refuses (exactly (name ++ [':']) >>= next) word.chars := by
  intro after ends
  apply bind_of_none
  apply exactly_of_mismatch
  rw [Bool.eq_false_iff, ne_eq, List.isPrefixOf_iff_prefix]
  rintro ⟨rest, parts⟩
  rw [List.append_assoc, List.singleton_append] at parts
  have letters : ∀ c ∈ name, isBlank c = false :=
    fun c member => isBlank_of_isFieldChar (List.all_eq_true.mp wellFormed c member)
  have stops : Stops (· == ':') (':' :: rest) :=
    stops_behind parts.symm ends letters rfl (word.not_mem rfl)
  cases stops ':' rfl

end PlainWord

end SelectorLang
