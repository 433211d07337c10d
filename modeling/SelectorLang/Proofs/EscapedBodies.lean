import SelectorLang.Directive
import SelectorLang.Proofs.Delimited
import SelectorLang.Proofs.Slots

set_option autoImplicit false

namespace SelectorLang

/-- No character of the text would be escaped in a reference body. -/
def Unmarked (text : List Char) : Prop :=
  ∀ c ∈ text, (c == '\\' || LiteralKind.curly.isDelimiter c) = false

instance (text : List Char) : Decidable (Unmarked text) :=
  List.decidableBAll (fun c => (c == '\\' || LiteralKind.curly.isDelimiter c) = false) text

theorem unmarked_of_all {accepts : Char → Bool} {text : List Char}
    (accepted : text.all accepts = true) (backslash : accepts '\\' = false)
    (opening : accepts '\x7b' = false) (closing : accepts '\x7d' = false) : Unmarked text := by
  intro c member
  have fits : accepts c = true := List.all_eq_true.mp accepted c member
  simp only [LiteralKind.isDelimiter, Bool.or_eq_false_iff, beq_eq_false_iff_ne]
  exact ⟨Reader.ne_of_accepted fits backslash, Reader.ne_of_accepted fits opening,
    Reader.ne_of_accepted fits closing⟩

theorem Unmarked.append {front back : List Char} (left : Unmarked front) (right : Unmarked back) :
    Unmarked (front ++ back) := by
  intro c member
  rcases List.mem_append.mp member with first | second
  · exact left c first
  · exact right c second

namespace Directive

open Reader

variable {α : Type}

theorem takes_directive (name : List Char) (plain : Unmarked (name ++ [':']))
    {next : Unit → Reader α} (behind : (next ()).Takes (fun lexeme _ => Unmarked lexeme)) :
    (exactly (name ++ [':']) >>= next).Takes (fun lexeme _ => Unmarked lexeme) := by
  refine ((takes_exactly (name ++ [':'])).bind (fun _ => behind)).mono ?_
  rintro _ _ ⟨_, _, back, rfl, rfl, unmarked⟩
  exact plain.append unmarked

theorem takes_digits : (run1 isDecimalDigit).Takes (fun lexeme _ => Unmarked lexeme) := by
  refine (takes_run1 isDecimalDigit).mono ?_
  rintro _ digits ⟨rfl, _, accepted⟩
  exact unmarked_of_all accepted (by decide) (by decide) (by decide)

theorem takes_limit : limit.Takes (fun lexeme _ => Unmarked lexeme) :=
  takes_directive ['l', 'i', 'm', 'i', 't'] (by decide) (takes_digits.then_pure wordOf?)

theorem takes_offset : offset.Takes (fun lexeme _ => Unmarked lexeme) :=
  takes_directive ['o', 'f', 'f', 's', 'e', 't'] (by decide) (takes_digits.then_pure wordOf?)

theorem takes_sort : sort.Takes (fun lexeme _ => Unmarked lexeme) := by
  have letters : (run1 isWordChar).Takes (fun lexeme _ => Unmarked lexeme) := by
    refine (takes_run1 isWordChar).mono ?_
    rintro _ name ⟨rfl, _, accepted⟩
    exact unmarked_of_all accepted (by decide) (by decide) (by decide)
  exact takes_directive ['s', 'o', 'r', 't'] (by decide)
    (letters.then_pure (fun name => SortField.ofName? (String.ofList name)))

theorem takes_reverse : reverse.Takes (fun lexeme _ => Unmarked lexeme) := by
  have word : ∀ (chars : List Char) (value : Bool), Unmarked chars →
      (exactly chars >>= fun _ => pure value).Takes (fun lexeme _ => Unmarked lexeme) := by
    intro chars value unmarked
    refine Takes.then_pure ((takes_exactly chars).mono ?_) (fun _ => value)
    rintro _ _ rfl
    exact unmarked
  have digits := (word ['1'] true (by decide)).orElse (word ['0'] false (by decide))
  have words := (word ['f', 'a', 'l', 's', 'e'] false (by decide)).orElse digits
  exact takes_directive ['r', 'e', 'v', 'e', 'r', 's', 'e'] (by decide)
    ((word ['t', 'r', 'u', 'e'] true (by decide)).orElse words)

end Directive

/-- A text of plain characters and of backslashes that each take a character along. -/
inductive Units (plain taken : Char → Prop) : List Char → Prop where
  | nil : Units plain taken []
  | pair (c : Char) (rest : List Char) (fits : taken c) (units : Units plain taken rest) :
      Units plain taken ('\\' :: c :: rest)
  | plain (c : Char) (rest : List Char) (fits : plain c) (units : Units plain taken rest) :
      Units plain taken (c :: rest)

namespace Units

variable {plain taken : Char → Prop}

theorem tail {c : Char} {text : List Char} (units : Units plain taken (c :: text))
    (unescaped : c ≠ '\\') : Units plain taken text := by
  cases units with
  | pair => exact absurd rfl unescaped
  | plain _ _ _ units => exact units

theorem of_append {front rest : List Char} (unmarked : Unmarked front)
    (units : Units plain taken (front ++ rest)) : Units plain taken rest := by
  induction front with
  | nil => exact units
  | cons c others ih =>
    have first := (Bool.or_eq_false_iff.mp (unmarked c List.mem_cons_self)).1
    apply ih (fun d member => unmarked d (List.mem_cons_of_mem c member))
    exact units.tail (beq_eq_false_iff_ne.mp first)

/-- What stands behind a character that is no backslash may be exchanged. -/
theorem exchange {word text : List Char} {c : Char} (unescaped : c ≠ '\\')
    (units : Units plain taken (word ++ c :: text)) :
    Units plain taken text ∧
      ∀ left, Units plain taken left → Units plain taken (word ++ c :: left) := by
  generalize parts : word ++ c :: text = whole at units
  induction units generalizing word with
  | nil => exact absurd parts (List.append_ne_nil_of_right_ne_nil word (List.cons_ne_nil c text))
  | pair d rest fits units ih =>
    cases word with
    | nil => exact absurd (List.cons.inj parts).1 unescaped
    | cons e others =>
      obtain ⟨rfl, behind⟩ := List.cons.inj parts
      cases others with
      | nil =>
        -- The character is taken along by the backslash in front of it.
        obtain ⟨rfl, rfl⟩ := List.cons.inj behind
        exact ⟨units, fun left kept => .pair c left fits kept⟩
      | cons f others =>
        obtain ⟨rfl, later⟩ := List.cons.inj behind
        obtain ⟨kept, others⟩ := ih later
        exact ⟨kept, fun left fresh => .pair f _ fits (others left fresh)⟩
  | plain d rest fits units ih =>
    cases word with
    | nil =>
      obtain ⟨rfl, rfl⟩ := List.cons.inj parts
      exact ⟨units, fun left kept => .plain c left fits kept⟩
    | cons e others =>
      obtain ⟨rfl, later⟩ := List.cons.inj parts
      obtain ⟨kept, others⟩ := ih later
      exact ⟨kept, fun left fresh => .plain e _ fits (others left fresh)⟩

end Units

/-- The body of a literal is a text of units. -/
theorem Body.units_iff {closes : Char → Bool} {text : List Char} :
    Body closes text ↔
      Units (fun c => c ≠ '\\' ∧ closes c = false) (fun c => c ≠ '\n') text := by
  constructor
  · intro body
    induction body with
    | nil => exact .nil
    | pair c rest taken _ ih => exact .pair c rest taken ih
    | plain c rest unescaped inside _ ih => exact .plain c rest ⟨unescaped, inside⟩ ih
  · intro units
    induction units with
    | nil => exact .nil
    | pair c rest taken _ ih => exact .pair c rest taken ih
    | plain c rest fits _ ih => exact .plain c rest fits.1 fits.2 ih

def isMarked (c : Char) : Bool := c == '\\' || LiteralKind.curly.isDelimiter c

/-- Escaping makes units of marked characters and leaves the others. -/
theorem units_escape (query : List Char) :
    Units (isMarked · = false) (isMarked · = true) (LiteralKind.curly.escape query) := by
  induction query with
  | nil => exact .nil
  | cons c rest ih =>
    rw [LiteralKind.escape]
    split
    · rename_i marked
      exact .pair c _ marked ih
    · rename_i plain
      exact .plain c _ (Bool.not_eq_true _ ▸ plain) ih

/-- A text of such units is what escaping makes of some text. -/
theorem exists_escape {text : List Char}
    (units : Units (isMarked · = false) (isMarked · = true) text) :
    ∃ query, text = LiteralKind.curly.escape query := by
  induction units with
  | nil => exact ⟨[], rfl⟩
  | pair c rest marked _ ih =>
    obtain ⟨query, rfl⟩ := ih
    exact ⟨c :: query, (if_pos marked).symm⟩
  | plain c rest plain _ ih =>
    obtain ⟨query, rfl⟩ := ih
    exact ⟨c :: query, (if_neg (ne_true_of_eq_false plain)).symm⟩

namespace Token

variable {α : Type} {reader : Reader α}

/-- An unmarked text at the front of a closed body is the front of the body. -/
theorem body_of_unmarked {body lexeme after tail : List Char} (unmarked : Unmarked lexeme)
    (parts : body ++ '\x7d' :: tail = lexeme ++ after) :
    ∃ rest, body = lexeme ++ rest ∧ after = rest ++ '\x7d' :: tail := by
  rcases List.append_eq_append_iff.mp parts with ⟨more, same, behind⟩ | ⟨rest, same, behind⟩
  · cases more with
    | nil => exact ⟨[], by rw [same, List.append_nil, List.append_nil], behind.symm⟩
    | cons c others =>
      have closing : '\x7d' = c := (List.cons.inj behind).1
      have outside := unmarked c (same ▸ List.mem_append_right _ List.mem_cons_self)
      rw [← closing] at outside
      cases outside
  · exact ⟨rest, same, behind⟩

theorem scanFrom_blanks (dark : reader.Dark) (literals : List Span) {tail : List Char}
    (blank : tail.all isBlank = true) (offset : Nat) (start : Bool) :
    scanFrom reader literals 0 offset start tail = tail.map .other := by
  induction tail generalizing offset start with
  | nil => rfl
  | cons c rest ih =>
    rw [List.all_cons, Bool.and_eq_true] at blank
    rw [scanFrom_other (Or.inr (readAt_of_none (dark c rest blank.1))), ih blank.2, List.map_cons]

/-- A scan for unmarked tokens leaves of a closed body of units a closed body of units. -/
theorem rest_scanFrom_units (dark : reader.Dark)
    (takes : reader.Takes (fun lexeme _ => Unmarked lexeme)) {plain taken : Char → Prop}
    (space : plain ' ') (literals : List Span) {tail : List Char} (blank : tail.all isBlank = true)
    {body : List Char} (units : Units plain taken body) (offset : Nat) (start : Bool) :
    ∃ left, Units plain taken left ∧
      Piece.rest (scanFrom reader literals 0 offset start (body ++ '\x7d' :: '>' :: tail)) =
        left ++ '\x7d' :: '>' :: tail := by
  -- A token takes several characters of the body at once.
  induction size : body.length using Nat.strongRecOn generalizing body offset start with
  | ind length ih =>
    by_cases unread :
      (start && !literals.any (fun literal => literal.strictlyInside offset)) = false ∨
        readAt reader (body ++ '\x7d' :: '>' :: tail) = none
    · cases units with
      | nil =>
        have others := Slot.rest_others tail ([] : List (Piece α))
        rw [List.append_nil, Piece.rest, List.append_nil] at others
        refine ⟨[], .nil, ?_⟩
        simp only [List.nil_append] at unread ⊢
        rw [scanFrom_other unread, scanFrom_other (Or.inl rfl), scanFrom_blanks dark literals blank,
          Piece.rest, Piece.rest, others]
      | pair c rest fits units =>
        have shorter : rest.length < length := by
          rw [← size, List.length_cons, List.length_cons]
          omega
        obtain ⟨left, kept, later⟩ := ih rest.length shorter units (offset + 1 + 1) (isBlank c) rfl
        refine ⟨'\\' :: c :: left, .pair c left fits kept, ?_⟩
        simp only [List.cons_append] at unread ⊢
        rw [scanFrom_other unread, scanFrom_other (Or.inl rfl), Piece.rest, Piece.rest, later]
      | plain c rest fits units =>
        have shorter : rest.length < length := by
          rw [← size, List.length_cons]
          omega
        obtain ⟨left, kept, later⟩ := ih rest.length shorter units (offset + 1) (isBlank c) rfl
        refine ⟨c :: left, .plain c left fits kept, ?_⟩
        simp only [List.cons_append] at unread ⊢
        rw [scanFrom_other unread, Piece.rest, later]
    · rw [not_or, Bool.not_eq_false] at unread
      obtain ⟨ready, found⟩ := unread
      obtain ⟨⟨width, value⟩, read⟩ := Option.ne_none_iff_exists'.mp found
      obtain ⟨lexeme, after, parts, rfl, nonempty, unmarked, _⟩ := lexeme_of_readAt takes read
      obtain ⟨rest, rfl, rfl⟩ := body_of_unmarked unmarked parts
      obtain ⟨c, word, rfl⟩ := List.exists_cons_of_ne_nil nonempty
      have fewer : rest.length < length := by
        rw [← size, List.length_append, List.length_cons]
        omega
      obtain ⟨left, kept, later⟩ :=
        ih rest.length fewer (units.of_append unmarked) (offset + 1 + word.length) false rfl
      refine ⟨' ' :: left, .plain ' ' left space kept, ?_⟩
      rw [List.append_assoc, List.cons_append] at read ⊢
      rw [scanFrom_taken ready read, Piece.rest, later]
      rfl

end Token

end SelectorLang
