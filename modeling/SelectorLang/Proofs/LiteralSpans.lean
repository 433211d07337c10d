import SelectorLang.Proofs.Slots

set_option autoImplicit false

namespace SelectorLang

namespace Span

def Apart (span other : Span) : Prop := span.stop ≤ other.start ∨ other.stop ≤ span.start

def Covers (span other : Span) : Prop := span.start ≤ other.start ∧ other.stop ≤ span.stop

/-- The other span begins inside the span and goes on behind it. -/
def Cuts (span other : Span) : Prop :=
  span.start < other.start ∧ other.start < span.stop ∧ span.stop < other.stop

instance (span other : Span) : Decidable (span.Cuts other) :=
  inferInstanceAs (Decidable (_ ∧ _ ∧ _))

theorem not_cuts_of_apart {span other : Span} (proper : other.start ≤ other.stop)
    (apart : span.Apart other) : ¬span.Cuts other := by
  rintro ⟨before, inside, _⟩
  rcases apart with earlier | later
  · exact Nat.not_le_of_lt inside earlier
  · exact Nat.not_le_of_lt before (Nat.le_trans proper later)

theorem not_cuts_of_covers {span other : Span} (covers : span.Covers other) : ¬span.Cuts other :=
  fun cuts => Nat.not_le_of_lt cuts.2.2 covers.2

end Span

namespace Piece

variable {α : Type}

def places : Nat → List (Piece α) → List Span
  | _, [] => []
  | offset, .other _ :: pieces => places (offset + 1) pieces
  | offset, .token lexeme _ :: pieces =>
    ⟨offset, offset + lexeme.length⟩ :: places (offset + lexeme.length) pieces

/-- At the places of the tokens stand their lexemes. -/
theorem slice_places (before : List Char) (pieces : List (Piece α)) :
    (places before.length pieces).map (fun span => span.slice (before ++ pieces.flatMap source)) =
      (tokens pieces).map Prod.fst := by
  induction pieces generalizing before with
  | nil => rfl
  | cons piece pieces ih =>
    cases piece with
    | other c =>
      have later := ih (before ++ [c])
      rwa [List.length_append, List.append_assoc] at later
    | token lexeme value =>
      have later := ih (before ++ lexeme)
      rw [List.length_append, List.append_assoc] at later
      have own : Span.slice ⟨before.length, before.length + lexeme.length⟩
          (before ++ (lexeme ++ pieces.flatMap source)) = lexeme := by
        simp only [Span.slice, Nat.add_sub_cancel_left, List.drop_left, List.take_left]
      rw [places, tokens, List.map_cons, List.map_cons, List.flatMap_cons, source, own, later]

end Piece

namespace Text

theorem Breaks.tail {c : Char} {text : List Char} (breaks : Breaks (c :: text)) : Breaks text := by
  rcases breaks with none | ⟨front, b, parts, blank⟩
  · cases none
  · cases front with
    | nil => exact Or.inl (List.cons.inj parts).2
    | cons _ front => exact Or.inr ⟨front, b, (List.cons.inj parts).2, blank⟩

/-- A character in front of a place where a word can begin is a blank. -/
theorem Breaks.isBlank_of_singleton {c : Char} (breaks : Breaks [c]) : isBlank c = true := by
  rcases breaks with none | ⟨front, b, parts, blank⟩
  · cases none
  · have last := congrArg List.getLast? parts
    rw [List.getLast?_singleton, List.getLast?_concat] at last
    rwa [Option.some.inj last]

theorem length_trimEnd_le (text : List Char) : (trimEnd text).length ≤ text.length := by
  have reversed : text.reverse.length = text.length := List.length_reverse
  rw [trimEnd, List.length_reverse, ← reversed]
  exact (List.dropWhile_sublist isBlank).length_le

theorem trimEnd_append_blank (text : List Char) {c : Char} (blank : isBlank c = true) :
    trimEnd (text ++ [c]) = trimEnd text := by
  rw [trimEnd, List.reverse_append, List.reverse_singleton, List.singleton_append,
    List.dropWhile_cons_of_pos blank, trimEnd]

end Text

namespace Literal

/-- The span of a literal without the blank that ends its word. -/
def bare (text : List Char) (span : Span) : Span :=
  ⟨span.start, span.start + (Text.trimEnd (span.slice text)).length⟩

theorem start_le_stop_bare (text : List Char) (span : Span) :
    (bare text span).start ≤ (bare text span).stop := Nat.le_add_right _ _

theorem stop_bare_le (text : List Char) {span : Span} (proper : span.start ≤ span.stop) :
    (bare text span).stop ≤ span.stop := by
  have trimmed := Text.length_trimEnd_le (span.slice text)
  have sliced : (span.slice text).length ≤ span.stop - span.start := List.length_take_le _ _
  simp only [bare]
  omega

theorem bounds_of_mem {span : Span} {skip offset : Nat} {text : List Char}
    (member : span ∈ spansFrom skip offset text) :
    span.start ≤ span.stop ∧ span.stop ≤ offset + text.length := by
  induction text generalizing skip offset with
  | nil => cases skip <;> cases member
  | cons c rest ih =>
    rw [Text.add_length_cons]
    cases skip with
    | succ skip => exact ih member
    | zero =>
      rw [spansFrom] at member
      split at member
      · rcases List.mem_cons.mp member with rfl | later
        · exact ⟨Nat.le_add_right _ _, Nat.add_le_add_left (Nat.sub_le _ _) _⟩
        · exact ih later
      · exact ih member

/-- Where a word can begin and no literal stands around the place, the literals behind it are those
of the text from there on. -/
theorem mem_spansFrom_of_breaks {before rest : List Char} (breaks : Text.Breaks before)
    {skip offset : Nat} (within : skip ≤ before.length)
    (outside : ∀ span ∈ spansFrom skip offset (before ++ rest),
      span.strictlyInside (offset + before.length) = false)
    {span : Span} (member : span ∈ spansFrom skip offset (before ++ rest)) :
    span.stop ≤ offset + before.length ∨ span ∈ spansFrom 0 (offset + before.length) rest := by
  induction before generalizing skip offset with
  | nil =>
    obtain rfl := Nat.le_zero.mp within
    exact Or.inr member
  | cons c others ih =>
    rw [Text.add_length_cons] at outside ⊢
    rw [List.cons_append] at outside member
    cases skip with
    | succ skip => exact ih breaks.tail (Nat.le_of_succ_le_succ within) outside member
    | zero =>
      rw [spansFrom] at outside member
      cases read : operand (c :: (others ++ rest)) with
      | none =>
        rw [read] at outside member
        exact ih breaks.tail (Nat.zero_le _) outside member
      | some found =>
        obtain ⟨_, after⟩ := found
        rw [read] at outside member
        simp only at outside member
        -- The last character in front of the place is a blank, which begins no literal.
        have more : 0 < others.length := by
          cases others with
          | cons d others => exact Nat.succ_pos _
          | nil =>
            rw [operand_of_blank breaks.isBlank_of_singleton] at read
            cases read
        obtain ⟨own, behind⟩ := List.forall_mem_cons.mp outside
        simp only [Span.strictlyInside, Bool.and_eq_false_iff, decide_eq_false_iff_not] at own
        rcases List.mem_cons.mp member with rfl | listed
        · left
          simp only
          omega
        · exact ih breaks.tail (by omega) behind listed

/-- A literal that begins in the text ends with it when the second text follows. -/
def Closed (text after : List Char) : Prop :=
  Silent text after ∨ ∃ front operator literal, text = front ++ operator :: literal ∧
    Silent front (operator :: (literal ++ after)) ∧
      operand (operator :: (literal ++ after)) = some ((), after.drop 1)

/-- No literal goes on behind a text that ends its own. -/
theorem Closed.bounds {text after : List Char} (closed : Closed text after)
    (ends : Token.endsWord after = true) (before : List Char) {span : Span}
    (member : span ∈ spansFrom 0 before.length (text ++ after)) :
    before.length + text.length ≤ span.start ∨
      (bare (before ++ (text ++ after)) span).stop ≤ before.length + text.length := by
  rcases closed with silent | ⟨front, operator, literal, rfl, silent, reads⟩
  · rw [spansFrom_silent silent] at member
    exact Or.inl (Nat.le_of_lt (start_lt_of_mem member))
  · rw [spansFrom_ended silent ends reads] at member
    rcases List.mem_cons.mp member with rfl | later
    · right
      have parts : before ++ ((front ++ operator :: literal) ++ after) =
          (before ++ front ++ [operator]) ++ ((literal ++ after.take 1) ++ after.drop 1) := by
        simp only [List.append_assoc, List.cons_append, List.nil_append, List.take_append_drop]
      have width : before.length + front.length + 1 = (before ++ front ++ [operator]).length := by
        simp only [List.length_append, List.length_singleton]
      have own : Text.trimEnd (literal ++ after.take 1) = Text.trimEnd literal := by
        cases after with
        | nil => rw [List.take_nil, List.append_nil]
        | cons b rest => exact Text.trimEnd_append_blank literal ends
      have trimmed := Text.length_trimEnd_le literal
      simp only [bare, Span.slice, parts, width, Nat.add_sub_cancel_left, List.drop_left,
        List.take_left, own]
      simp only [List.length_append, List.length_cons, List.length_nil]
      omega
    · exact Or.inl (Nat.le_of_lt (start_lt_of_mem later))

end Literal

namespace Token

variable {α : Type} {reader : Reader α}

/-- A token in a scan was read at its place: a word can begin there, and no literal stands
around. -/
theorem read_of_mem_places {literals : List Span} (text before : List Char) {skip : Nat}
    {start : Bool} (breaks : start = true → Text.Breaks before) {span : Span}
    (member : span ∈ Piece.places (before.length + skip)
      (scanFrom reader literals skip before.length start text)) :
    ∃ front rest length value, before ++ text = front ++ rest ∧
      span = ⟨front.length, front.length + length⟩ ∧ Text.Breaks front ∧
      literals.any (fun literal => literal.strictlyInside front.length) = false ∧
      readAt reader rest = some (length, value) := by
  induction text generalizing before skip start with
  | nil => cases skip <;> cases member
  | cons c rest ih =>
    have parts : before ++ c :: rest = (before ++ [c]) ++ rest := by
      rw [List.append_assoc, List.singleton_append]
    have width : (before ++ [c]).length = before.length + 1 := List.length_append
    cases skip with
    | succ skip =>
      have later := @ih (before ++ [c]) skip false nofun
      rw [width, Nat.add_assoc, Nat.add_comm 1, ← parts] at later
      exact later member
    | zero =>
      simp only [scanFrom] at member
      split at member
      · rename_i length value found
        obtain ⟨ready, read⟩ := ready_of_found found
        rw [Bool.and_eq_true, Bool.not_eq_true'] at ready
        have size : ((c :: rest).take length).length = length := by
          rw [List.length_take, Nat.min_eq_left (length_le_of_readAt read)]
        obtain ⟨positive, _⟩ := readAt_bounds reader (c :: rest) length value read
        rw [Piece.places, size] at member
        rcases List.mem_cons.mp member with rfl | later
        · exact ⟨before, c :: rest, length, value, rfl, rfl, breaks ready.1, ready.2, read⟩
        · have behind := @ih (before ++ [c]) (length - 1) false nofun
          have shift : before.length + 1 + (length - 1) = before.length + 0 + length := by omega
          rw [width, shift, ← parts] at behind
          exact behind later
      · have behind := @ih (before ++ [c]) 0 (isBlank c)
          (fun blank => Or.inr ⟨before, c, rfl, blank⟩)
        rw [width, ← parts] at behind
        exact behind member

/-- A token of a reader that ends the literals in its tokens, or leaves some of them open, stands
apart from a literal or covers it, or it is open and has the literal's blank behind it. -/
theorem place_literal {opens : List Char → Prop}
    (takes : reader.Takes (fun lexeme _ =>
      (∀ after, endsWord after = true → Literal.Closed lexeme after) ∨ opens lexeme))
    {text : List Char} {token literal : Span} (member : token ∈ Piece.places 0 (scan reader text))
    (listed : literal ∈ Literal.spans text) :
    token.Apart (Literal.bare text literal) ∨ token.Covers (Literal.bare text literal) ∨
      token.Cuts (Literal.bare text literal) ∧ opens (token.slice text) ∧
        ∃ c, text[token.stop]? = some c ∧ isBlank c = true := by
  obtain ⟨before, rest, length, value, parts, rfl, breaks, outside, read⟩ :=
    @read_of_mem_places _ _ (Literal.spans text) text [] 0 true (fun _ => Or.inl rfl) _ member
  obtain ⟨lexeme, after, rfl, rfl, _, fits, ends, _⟩ := lexeme_of_readAt takes read
  rw [List.nil_append] at parts
  subst parts
  have around : ∀ span ∈ Literal.spansFrom 0 0 (before ++ (lexeme ++ after)),
      span.strictlyInside (0 + before.length) = false := by
    rw [Nat.zero_add]
    rw [List.any_eq_false] at outside
    exact fun span found => Bool.eq_false_iff.mpr (outside span found)
  have proper := (Literal.bounds_of_mem listed).1
  have stop := Literal.stop_bare_le (before ++ (lexeme ++ after)) proper
  rcases Literal.mem_spansFrom_of_breaks breaks (Nat.zero_le _) around listed with earlier | later
  · left
    right
    rw [Nat.zero_add] at earlier
    exact Nat.le_trans stop earlier
  · rw [Nat.zero_add] at later
    have start := Literal.start_lt_of_mem later
    by_cases behind : before.length + lexeme.length ≤ literal.start
    · exact Or.inl (Or.inl behind)
    · by_cases inside : (Literal.bare (before ++ (lexeme ++ after)) literal).stop ≤
          before.length + lexeme.length
      · exact Or.inr (Or.inl ⟨Nat.le_of_lt start, inside⟩)
      · right
        right
        have slice : Span.slice ⟨before.length, before.length + lexeme.length⟩
            (before ++ (lexeme ++ after)) = lexeme := by
          simp only [Span.slice, Nat.add_sub_cancel_left, List.drop_left, List.take_left]
        refine ⟨⟨start, Nat.lt_of_not_le behind, Nat.lt_of_not_le inside⟩, ?_, ?_⟩
        · rw [slice]
          refine fits.resolve_left (fun closed => ?_)
          rcases (closed after ends).bounds ends before later with past | within
          · exact behind past
          · exact inside within
        · -- The literal goes on behind the token, so the text does.
          have last := (Literal.bounds_of_mem later).2
          rw [List.length_append] at last
          cases after with
          | nil => exact absurd (Nat.le_trans stop last) inside
          | cons c rest =>
            refine ⟨c, ?_, ends⟩
            rw [← List.append_assoc, ← List.length_append,
              List.getElem?_append_right (Nat.le_refl _), Nat.sub_self]
            rfl

end Token

end SelectorLang
