import SelectorLang.Proofs.Scanning

set_option autoImplicit false

namespace SelectorLang

namespace Literal

open Reader

/-- No literal begins in the first text when the second one follows. -/
def Silent : List Char → List Char → Prop
  | [], _ => True
  | c :: rest, after => operand (c :: (rest ++ after)) = none ∧ Silent rest after

def isOperator (c : Char) : Bool := c == '=' || c == '~' || c == '<' || c == '>'

theorem operand_of_plain {c : Char} (plain : isOperator c = false) (rest : List Char) :
    operand (c :: rest) = none :=
  bind_of_none _ (satisfy_of_stops (stops_cons plain rest))

/-- Behind most operators only a quote begins a literal. -/
theorem operand_of_unquoted {c : Char} (other : c ≠ '~') {rest : List Char}
    (unquoted : Stops (· == '"') rest) : operand (c :: rest) = none := by
  cases sign : isOperator c with
  | false => exact operand_of_plain sign rest
  | true =>
    have mark : satisfy (fun c => c == '=' || c == '~' || c == '<' || c == '>') (c :: rest) =
        some (c, rest) := satisfy_cons sign rest
    have noQuote : quoted rest = none := bind_of_none _ (exactly_of_stops unquoted)
    have noSlash : (c == '~') = false := beq_eq_false_iff_ne.mpr other
    simp only [operand, bind_apply, mark, Option.bind_some, orElse_apply, noQuote, Option.bind_none,
      noSlash, Bool.false_eq_true, ↓reduceIte, failure_apply, Option.or_none]

theorem spansFrom_silent {text after : List Char} (silent : Silent text after) (offset : Nat) :
    spansFrom 0 offset (text ++ after) = spansFrom 0 (offset + text.length) after := by
  induction text generalizing offset with
  | nil => rfl
  | cons c rest ih =>
    obtain ⟨first, others⟩ := silent
    rw [List.cons_append, spansFrom, first]
    simp only
    rw [ih others, List.length_cons]
    congr 1
    omega

theorem spansFrom_skip (skipped rest : List Char) (offset : Nat) :
    spansFrom skipped.length offset (skipped ++ rest) =
      spansFrom 0 (offset + skipped.length) rest := by
  induction skipped generalizing offset with
  | nil => rfl
  | cons c others ih =>
    rw [List.length_cons, List.cons_append, spansFrom, ih]
    congr 1
    omega

theorem isOperator_of_blank {c : Char} (blank : isBlank c = true) : isOperator c = false := by
  have codes : ∀ code ∈ blankCodes, isOperator (Char.ofNat code) = false := by decide
  exact blank_induction (fun c => isOperator c = false) codes blank

theorem operand_of_blank {c : Char} (blank : isBlank c = true) (rest : List Char) :
    operand (c :: rest) = none :=
  operand_of_plain (isOperator_of_blank blank) rest

theorem spansFrom_blank {c : Char} (blank : isBlank c = true) (offset : Nat) (rest : List Char) :
    spansFrom 0 offset (c :: rest) = spansFrom 0 (offset + 1) rest := by
  rw [spansFrom, operand_of_blank blank rest]

/-- A literal goes from behind its operator to the end of what is read with it. -/
theorem spansFrom_operand {operator : Char} (literal : List Char) {after : List Char}
    (reads : operand (operator :: (literal ++ after)) = some ((), after)) (offset : Nat) :
    spansFrom 0 offset (operator :: (literal ++ after)) =
      ⟨offset + 1, offset + 1 + literal.length⟩ ::
        spansFrom 0 (offset + 1 + literal.length) after := by
  rw [spansFrom, reads]
  simp only [List.length_append, Nat.add_sub_cancel, spansFrom_skip]

theorem start_lt_of_mem {span : Span} {skip offset : Nat} {text : List Char}
    (member : span ∈ spansFrom skip offset text) : offset < span.start := by
  induction text generalizing skip offset with
  | nil => cases skip <;> cases member
  | cons c rest ih =>
    cases skip with
    | succ skip =>
      have later := ih member
      omega
    | zero =>
      rw [spansFrom] at member
      split at member
      · rcases List.mem_cons.mp member with rfl | others
        · exact Nat.lt_succ_self offset
        · have later := ih others
          omega
      · have later := ih member
        omega

/-- The literal of a text with one operand: a blank behind it is its last character. -/
theorem spansFrom_ended {front literal after : List Char} {operator : Char}
    (silent : Silent front (operator :: (literal ++ after)))
    (ends : Token.endsWord after = true)
    (reads : operand (operator :: (literal ++ after)) = some ((), after.drop 1)) (offset : Nat) :
    spansFrom 0 offset ((front ++ operator :: literal) ++ after) =
      ⟨offset + front.length + 1,
          offset + front.length + 1 + (literal ++ after.take 1).length⟩ ::
        spansFrom 0 (offset + (front ++ operator :: literal).length) after := by
  have width : offset + (front ++ operator :: literal).length =
      offset + front.length + 1 + literal.length := by
    simp only [List.length_append, List.length_cons]
    omega
  rw [width, List.append_assoc, List.cons_append, spansFrom_silent silent]
  cases after with
  | nil =>
    have whole := spansFrom_operand literal reads (offset + front.length)
    rw [List.take_nil, List.append_nil]
    rwa [List.append_nil] at whole
  | cons b rest =>
    have parts : literal ++ b :: rest = (literal ++ [b]) ++ rest := by
      rw [List.append_assoc, List.singleton_append]
    rw [parts] at reads ⊢
    rw [spansFrom_operand (literal ++ [b]) reads, spansFrom_blank ends]
    simp only [List.take_succ_cons, List.take_zero, List.length_append, List.length_singleton,
      Nat.add_assoc]

end Literal

/-- A word in which no reading is tried behind its first character: it has no blanks, or all of them
stand in a literal that goes on to its end. -/
inductive Solid : List Char → Prop
  | plain (word : List Char) (nonempty : word ≠ []) (dark : ∀ c ∈ word, isBlank c = false)
      (silent : ∀ after, Token.endsWord after = true → Literal.Silent word after) : Solid word
  | quoted (front : List Char) (operator : Char) (literal : List Char)
      (dark : ∀ c ∈ front ++ [operator, '"'], isBlank c = false)
      (silent : ∀ after, Token.endsWord after = true →
        Literal.Silent front (operator :: '"' :: (literal ++ after)))
      (reads : ∀ after, Token.endsWord after = true →
        Literal.operand (operator :: '"' :: (literal ++ after)) = some ((), after.drop 1)) :
      Solid (front ++ operator :: '"' :: literal)

theorem Solid.ne_nil {word : List Char} (solid : Solid word) : word ≠ [] := by
  cases solid with
  | plain _ nonempty => exact nonempty
  | quoted front => exact List.append_ne_nil_of_right_ne_nil front (List.cons_ne_nil _ _)

namespace Token

variable {α : Type} {reader : Reader α} {literals : List Span}

/-- No reading is tried in the text when it is scanned from an offset on. -/
def Guarded (literals : List Span) : Nat → Bool → List Char → Prop
  | _, _, [] => True
  | offset, start, c :: rest =>
    (start && !literals.any (fun literal => literal.strictlyInside offset)) = false ∧
      Guarded literals (offset + 1) (isBlank c) rest

theorem guarded_of_inside {text : List Char} {offset : Nat} (start : Bool)
    (inside : ∀ place, offset ≤ place → place < offset + text.length →
      ∃ literal ∈ literals, literal.strictlyInside place = true) :
    Guarded literals offset start text := by
  induction text generalizing offset start with
  | nil => trivial
  | cons c rest ih =>
    rw [List.length_cons] at inside
    refine ⟨?_, ih (isBlank c) (fun place above below => inside place (by omega) (by omega))⟩
    have covered := List.any_eq_true.mpr (inside offset (Nat.le_refl _) (by omega))
    rw [covered, Bool.not_true, Bool.and_false]

theorem guarded_of_dark {front back : List Char} (dark : ∀ c ∈ front, isBlank c = false)
    {offset : Nat} (behind : Guarded literals (offset + front.length) false back) :
    Guarded literals offset false (front ++ back) := by
  induction front generalizing offset with
  | nil => exact behind
  | cons c rest ih =>
    refine ⟨rfl, ?_⟩
    rw [dark c List.mem_cons_self]
    apply ih (fun d member => dark d (List.mem_cons_of_mem c member))
    rwa [List.length_cons, ← Nat.add_assoc, Nat.add_right_comm] at behind

theorem scanFrom_other {offset : Nat} {start : Bool} {c : Char} {rest : List Char}
    (unread : (start && !literals.any (fun literal => literal.strictlyInside offset)) = false ∨
      readAt reader (c :: rest) = none) :
    scanFrom reader literals 0 offset start (c :: rest) =
      .other c :: scanFrom reader literals 0 (offset + 1) (isBlank c) rest := by
  rw [scanFrom]
  have nothing : (if start && !literals.any (fun literal => literal.strictlyInside offset)
      then readAt reader (c :: rest) else none) = none := by
    rcases unread with closed | failed
    · rw [closed, if_neg Bool.false_ne_true]
    · rw [failed, ite_self]
  rw [nothing]

theorem scanFrom_guarded (reader : Reader α) {text : List Char} {offset : Nat} {start : Bool}
    (guarded : Guarded literals offset start text) (rest : List Char) :
    ∃ after, scanFrom reader literals 0 offset start (text ++ rest) =
      text.map .other ++ scanFrom reader literals 0 (offset + text.length) after rest := by
  induction text generalizing offset start with
  | nil => exact ⟨start, rfl⟩
  | cons c others ih =>
    obtain ⟨unread, behind⟩ := guarded
    obtain ⟨after, later⟩ := ih behind
    refine ⟨after, ?_⟩
    rw [List.cons_append, scanFrom_other (Or.inl unread), later, Text.add_length_cons,
      List.map_cons, List.cons_append]

theorem any_strictlyInside_zero (literals : List Span) :
    literals.any (fun literal => literal.strictlyInside 0) = false := by
  rw [List.any_eq_false]
  intro span _
  simp only [Span.strictlyInside, Nat.not_lt_zero, decide_false, Bool.false_and, Bool.false_eq_true,
    not_false_eq_true]

/-- What is read at the front of a text is the first token of a scan. -/
theorem mem_scan_of_readAt {text : List Char} {length : Nat} {value : α}
    (read : readAt reader text = some (length, value)) :
    (text.take length, value) ∈ Piece.tokens (scan reader text) := by
  obtain ⟨positive, _⟩ := readAt_bounds reader text length value read
  have within := length_le_of_readAt read
  cases text with
  | nil => exact absurd (Nat.lt_of_lt_of_le positive within) (Nat.lt_irrefl 0)
  | cons c rest =>
    have outside : (Literal.spans (c :: rest)).any (fun literal => literal.strictlyInside 0) =
        false := any_strictlyInside_zero _
    rw [scan, scanFrom, outside]
    simp only [Bool.not_false, Bool.and_self, ↓reduceIte, read]
    exact List.mem_cons_self

/-- A word without blanks that is not read at its front is not read at all. -/
theorem scanFrom_dark {word rest : List Char} (dark : ∀ c ∈ word, isBlank c = false)
    (literals : List Span) (offset : Nat) (start : Bool)
    (unread : (start && !literals.any (fun literal => literal.strictlyInside offset)) = false ∨
      readAt reader (word ++ rest) = none) :
    ∃ after, scanFrom reader literals 0 offset start (word ++ rest) =
      word.map .other ++ scanFrom reader literals 0 (offset + word.length) after rest := by
  cases word with
  | nil => exact ⟨start, rfl⟩
  | cons c others =>
    have guarded : Guarded literals (offset + 1) false (others ++ []) :=
      guarded_of_dark (fun d member => dark d (List.mem_cons_of_mem c member)) trivial
    rw [List.append_nil] at guarded
    obtain ⟨after, behind⟩ := scanFrom_guarded reader guarded rest
    refine ⟨after, ?_⟩
    rw [List.cons_append] at unread ⊢
    rw [scanFrom_other unread, dark c List.mem_cons_self, behind, Text.add_length_cons,
      List.map_cons, List.cons_append]

theorem scanFrom_skip (skipped rest : List Char) (offset : Nat) :
    scanFrom reader literals skipped.length offset false (skipped ++ rest) =
      scanFrom reader literals 0 (offset + skipped.length) false rest := by
  induction skipped generalizing offset with
  | nil => rfl
  | cons c others ih =>
    rw [Text.add_length_cons, List.length_cons, List.cons_append, scanFrom, ih]

/-- Where a reader is tried and takes a word, the word is a token. -/
theorem scanFrom_taken {offset : Nat} {start : Bool} {c : Char} {word after : List Char} {value : α}
    (ready : (start && !literals.any (fun literal => literal.strictlyInside offset)) = true)
    (read : readAt reader (c :: (word ++ after)) = some (word.length + 1, value)) :
    scanFrom reader literals 0 offset start (c :: (word ++ after)) =
      .token (c :: word) value ::
        scanFrom reader literals 0 (offset + 1 + word.length) false after := by
  rw [scanFrom, if_pos ready, read]
  simp only [Nat.add_sub_cancel, List.take_succ_cons, List.take_left, scanFrom_skip]

/-- The reader takes the word, whatever stands behind it. -/
def Claims (reader : Reader α) (word : List Char) (value : α) : Prop :=
  ∀ after, endsWord after = true → reader (word ++ after) = some (value, after)

/-- The reader fails at the word, whatever stands behind it. -/
def Refuses (reader : Reader α) (word : List Char) : Prop :=
  ∀ after, endsWord after = true → reader (word ++ after) = none

theorem readAt_append {lexeme after : List Char} {value : α}
    (nonempty : lexeme ≠ []) (found : reader (lexeme ++ after) = some (value, after)) :
    readAt reader (lexeme ++ after) =
      if endsWord after then some (lexeme.length, value) else none := by
  have width : (lexeme ++ after).length - after.length = lexeme.length := by
    rw [List.length_append, Nat.add_sub_cancel]
  have positive : 0 < lexeme.length := List.length_pos_iff.mpr nonempty
  simp only [readAt, found, width, List.drop_left, positive, true_and]

theorem scanFrom_claims {word after : List Char} {value : α} (claims : Claims reader word value)
    (nonempty : word ≠ []) (ends : endsWord after = true) {offset : Nat}
    (outside : literals.any (fun literal => literal.strictlyInside offset) = false) :
    scanFrom reader literals 0 offset true (word ++ after) =
      .token word value :: scanFrom reader literals 0 (offset + word.length) false after := by
  obtain ⟨c, others, rfl⟩ := List.exists_cons_of_ne_nil nonempty
  have read : readAt reader (c :: (others ++ after)) = some (others.length + 1, value) := by
    have found := readAt_append nonempty (claims after ends)
    rwa [if_pos ends] at found
  have ready : (true && !literals.any (fun literal => literal.strictlyInside offset)) = true := by
    rw [outside]
    rfl
  rw [List.cons_append, scanFrom_taken ready read, Text.add_length_cons]

end Token

namespace Solid

variable {word after : List Char}

theorem dark_head {c : Char} {others : List Char} (solid : Solid (c :: others)) :
    isBlank c = false := by
  generalize same : c :: others = word at solid
  cases solid with
  | plain _ _ dark =>
    rw [← same] at dark
    exact dark c List.mem_cons_self
  | quoted front operator literal dark =>
    cases front with
    | nil =>
      cases same
      exact dark c List.mem_cons_self
    | cons d front =>
      cases same
      exact dark c List.mem_cons_self

/-- The literals from a solid word on: its own, which end with the word, and those behind it. No
reading is tried behind the first character. -/
theorem spans (solid : Solid word) (ends : Token.endsWord after = true) (offset : Nat) :
    ∃ own : List Span, Literal.spansFrom 0 offset (word ++ after) =
        own ++ Literal.spansFrom 0 (offset + word.length) after ∧
      (∀ span ∈ own, span.stop ≤ offset + word.length + 1) ∧
      ∀ literals : List Span, (∀ span ∈ own, span ∈ literals) →
        Token.Guarded literals (offset + 1) false word.tail := by
  cases solid with
  | plain _ _ dark silent =>
    refine ⟨[], Literal.spansFrom_silent (silent after ends) offset, nofun, fun literals _ => ?_⟩
    have tail : Token.Guarded literals (offset + 1) false (word.tail ++ []) :=
      Token.guarded_of_dark (fun c member => dark c (List.mem_of_mem_tail member)) trivial
    rwa [List.append_nil] at tail
  | quoted front operator literal dark silent reads =>
    have found : Literal.spansFrom 0 offset ((front ++ operator :: '"' :: literal) ++ after) = _ :=
      Literal.spansFrom_ended (silent after ends) ends (reads after ends) offset
    have most := List.length_take_le 1 after
    refine ⟨[_], found, ?_, ?_⟩
    · intro span member
      rw [List.mem_singleton.mp member]
      simp only [List.length_append, List.length_cons]
      omega
    · intro literals listed
      have member := listed _ (List.mem_singleton_self _)
      have parts : (front ++ operator :: '"' :: literal).tail =
          (front ++ [operator, '"']).tail ++ literal := by
        rw [← List.tail_append_of_ne_nil (List.append_ne_nil_of_right_ne_nil front
          (List.cons_ne_nil _ _)), List.append_assoc]
        rfl
      rw [parts]
      apply Token.guarded_of_dark (fun c member => dark c (List.mem_of_mem_tail member))
      apply Token.guarded_of_inside
      intro place above below
      refine ⟨_, member, ?_⟩
      simp only [List.length_tail, List.length_append, List.length_cons, List.length_nil]
        at above below
      simp only [Span.strictlyInside, List.length_append, List.length_cons, Bool.and_eq_true,
        decide_eq_true_eq]
      omega

end Solid

inductive Slot (ω : Type) where
  | gap (c : Char)
  | word (item : ω)

namespace Slot

variable {ω α : Type}

/-- Gaps are blanks, and a word is followed by one if by anything. -/
inductive Apart : List (Slot ω) → Prop
  | nil : Apart []
  | gap (c : Char) (blank : isBlank c = true) {slots : List (Slot ω)} (others : Apart slots) :
      Apart (.gap c :: slots)
  | last (item : ω) : Apart [.word item]
  | word (item : ω) (c : Char) (blank : isBlank c = true) {slots : List (Slot ω)}
      (others : Apart slots) : Apart (.word item :: .gap c :: slots)

def words : List (Slot ω) → List ω
  | [] => []
  | .gap _ :: slots => words slots
  | .word item :: slots => item :: words slots

def text (spell : ω → List Char) : List (Slot ω) → List Char
  | [] => []
  | .gap c :: slots => c :: text spell slots
  | .word item :: slots => spell item ++ text spell slots

/-- Words with an answer give way to a space. -/
def clear (answer : ω → Option α) : Slot ω → Slot ω
  | .gap c => .gap c
  | .word item => if (answer item).isSome then .gap ' ' else .word item

def wordPieces (chars : List Char) : Option α → List (Piece α)
  | some value => [.token chars value]
  | none => chars.map .other

/-- The pieces of a scan that answers some words. -/
def pieces (spell : ω → List Char) (answer : ω → Option α) : List (Slot ω) → List (Piece α)
  | [] => []
  | .gap c :: slots => .other c :: pieces spell answer slots
  | .word item :: slots => wordPieces (spell item) (answer item) ++ pieces spell answer slots

variable {spell : ω → List Char} {answer : ω → Option α}

theorem Apart.clear {slots : List (Slot ω)} (apart : Apart slots) (answer : ω → Option α) :
    Apart (slots.map (clear answer)) := by
  induction apart with
  | nil => exact .nil
  | gap c blank _ ih => exact .gap c blank ih
  | last item =>
    simp only [List.map_cons, List.map_nil, Slot.clear]
    split
    · exact .gap ' ' rfl .nil
    · exact .last item
  | word item c blank _ ih =>
    simp only [List.map_cons, Slot.clear]
    split
    · exact .gap ' ' rfl (.gap c blank ih)
    · exact .word item c blank ih

theorem words_clear (answer : ω → Option α) (slots : List (Slot ω)) :
    words (slots.map (clear answer)) = (words slots).filter (fun item => (answer item).isNone) := by
  induction slots with
  | nil => rfl
  | cons slot slots ih =>
    cases slot with
    | gap c => exact ih
    | word item =>
      rw [List.map_cons, clear, words, List.filter_cons]
      cases answer item with
      | some value => exact ih
      | none =>
        simp only [Option.isSome_none, Bool.false_eq_true, ↓reduceIte, Option.isNone_none]
        rw [← ih]
        rfl

/-- Where words have no blanks in them, they are the words of the text. -/
theorem words_text {slots : List (Slot ω)} (apart : Apart slots)
    (nonempty : ∀ item ∈ words slots, spell item ≠ [])
    (dark : ∀ item ∈ words slots, ∀ c ∈ spell item, isBlank c = false) :
    Text.words (text spell slots) = (words slots).map spell := by
  induction apart with
  | nil => rfl
  | gap c blank others ih =>
    rw [text, Text.words_cons_blank blank]
    exact ih nonempty dark
  | last item =>
    rw [text, text, List.append_nil, Text.words_of_dark (nonempty item List.mem_cons_self)
      (dark item List.mem_cons_self)]
    rfl
  | word item c blank others ih =>
    have later := ih (fun other member => nonempty other (List.mem_cons_of_mem item member))
      (fun other member => dark other (List.mem_cons_of_mem item member))
    rw [text, text, Text.words_append_blank _ _ c blank, later,
      Text.words_of_dark (nonempty item List.mem_cons_self) (dark item List.mem_cons_self)]
    rfl

theorem rest_others (chars : List Char) (others : List (Piece α)) :
    Piece.rest (chars.map .other ++ others) = chars ++ Piece.rest others := by
  induction chars with
  | nil => rfl
  | cons c chars ih => exact congrArg (c :: ·) ih

theorem tokens_others (chars : List Char) (others : List (Piece α)) :
    Piece.tokens (chars.map .other ++ others) = Piece.tokens others := by
  induction chars with
  | nil => rfl
  | cons c chars ih => exact ih

theorem rest_pieces (slots : List (Slot ω)) :
    Piece.rest (pieces spell answer slots) = text spell (slots.map (clear answer)) := by
  induction slots with
  | nil => rfl
  | cons slot slots ih =>
    cases slot with
    | gap c => exact congrArg (c :: ·) ih
    | word item =>
      rw [pieces, List.map_cons, clear]
      cases answer item with
      | some value => exact congrArg (' ' :: ·) ih
      | none =>
        simp only [Option.isSome_none, Bool.false_eq_true, ↓reduceIte]
        rw [wordPieces, rest_others, ih, text]

/-- The tokens of the slots are the words with an answer. -/
theorem tokens_pieces (slots : List (Slot ω)) :
    Piece.tokens (pieces spell answer slots) =
      (words slots).filterMap
        (fun item => (answer item).map (fun value => (spell item, value))) := by
  induction slots with
  | nil => rfl
  | cons slot slots ih =>
    cases slot with
    | gap c => exact ih
    | word item =>
      rw [pieces, words, List.filterMap_cons]
      cases answer item with
      | some value => exact congrArg ((spell item, value) :: ·) ih
      | none => exact (tokens_others _ _).trans ih

section Scan

variable {reader : Reader α}

theorem scanFrom_gap (dark : reader.Dark) (literals : List Span) {c : Char}
    (blank : isBlank c = true) (rest : List Char) (offset : Nat) (start : Bool) :
    Token.scanFrom reader literals 0 offset start (c :: rest) =
      .other c :: Token.scanFrom reader literals 0 (offset + 1) true rest := by
  rw [Token.scanFrom_other (Or.inr (Token.readAt_of_none (dark c rest blank))), blank]

/-- A solid word in a scan: it is taken whole or left whole. -/
theorem scanFrom_word {word after : List Char} (solid : Solid word)
    (ends : Token.endsWord after = true) {value : Option α}
    (claims : ∀ found, value = some found → Token.Claims reader word found)
    (refuses : value = none → Token.Refuses reader word) (before : List Span) (offset : Nat)
    (past : ∀ span ∈ before, span.stop ≤ offset) :
    ∃ own : List Span, (∀ span ∈ own, span.stop ≤ offset + word.length + 1) ∧
      Literal.spansFrom 0 offset (word ++ after) =
        own ++ Literal.spansFrom 0 (offset + word.length) after ∧
      ∃ start, Token.scanFrom reader (before ++ Literal.spansFrom 0 offset (word ++ after)) 0 offset
          true (word ++ after) =
        wordPieces word value ++
          Token.scanFrom reader (before ++ Literal.spansFrom 0 offset (word ++ after)) 0
            (offset + word.length) start after := by
  obtain ⟨own, spans, bound, guarded⟩ := solid.spans ends offset
  refine ⟨own, bound, spans, ?_⟩
  have outside : (before ++ Literal.spansFrom 0 offset (word ++ after)).any
      (fun literal => literal.strictlyInside offset) = false := by
    rw [List.any_eq_false]
    intro span member
    simp only [Span.strictlyInside, Bool.and_eq_true, decide_eq_true_eq]
    rcases List.mem_append.mp member with old | new
    · have stop := past span old
      omega
    · have start := Literal.start_lt_of_mem new
      omega
  cases value with
  | some found =>
    refine ⟨false, ?_⟩
    rw [Token.scanFrom_claims (claims found rfl) solid.ne_nil ends outside]
    rfl
  | none =>
    have refused := Token.readAt_of_none (refuses rfl after ends)
    have inside := guarded (before ++ Literal.spansFrom 0 offset (word ++ after))
      (fun span member => List.mem_append_right before (by
        rw [spans]
        exact List.mem_append_left _ member))
    obtain ⟨c, others, rfl⟩ := List.exists_cons_of_ne_nil solid.ne_nil
    have first := solid.dark_head
    rw [List.tail_cons] at inside
    obtain ⟨start, later⟩ := Token.scanFrom_guarded reader inside after
    refine ⟨start, ?_⟩
    rw [List.cons_append] at refused ⊢
    rw [List.cons_append] at later
    rw [Token.scanFrom_other (Or.inr refused), first, later, Text.add_length_cons, wordPieces,
      List.map_cons, List.cons_append]

/-- A scan of words and gaps takes the words that the reader takes. -/
theorem scan_text (dark : reader.Dark) {slots : List (Slot ω)} (apart : Apart slots)
    (solid : ∀ item ∈ words slots, Solid (spell item))
    (claims : ∀ item ∈ words slots, ∀ value, answer item = some value →
      Token.Claims reader (spell item) value)
    (refuses : ∀ item ∈ words slots, answer item = none → Token.Refuses reader (spell item)) :
    Token.scan reader (text spell slots) = pieces spell answer slots := by
  have general : ∀ (before : List Span) (offset : Nat), (∀ span ∈ before, span.stop ≤ offset) →
      Token.scanFrom reader (before ++ Literal.spansFrom 0 offset (text spell slots)) 0 offset true
        (text spell slots) = pieces spell answer slots := by
    induction apart with
    | nil => intro before offset past; rfl
    | gap c blank others ih =>
      intro before offset past
      rw [text, pieces, scanFrom_gap dark _ blank, Literal.spansFrom_blank blank,
        ih solid claims refuses before (offset + 1) (fun span member =>
          Nat.le_succ_of_le (past span member))]
    | last item =>
      intro before offset past
      obtain ⟨own, bound, spans, start, scanned⟩ := scanFrom_word (solid item List.mem_cons_self)
        (Eq.refl (Token.endsWord [])) (claims item List.mem_cons_self)
        (refuses item List.mem_cons_self) before offset past
      rw [text, text, scanned, pieces]
      rfl
    | word item c blank others ih =>
      intro before offset past
      rename_i slots
      have ends : Token.endsWord (c :: text spell slots) = true := blank
      obtain ⟨own, bound, spans, start, scanned⟩ := scanFrom_word (solid item List.mem_cons_self)
        ends (claims item List.mem_cons_self) (refuses item List.mem_cons_self) before offset past
      have later := ih (fun item member => solid item (List.mem_cons_of_mem _ member))
        (fun item member => claims item (List.mem_cons_of_mem _ member))
        (fun item member => refuses item (List.mem_cons_of_mem _ member)) (before ++ own)
        (offset + (spell item).length + 1) (by
          intro span member
          rcases List.mem_append.mp member with old | new
          · have stop := past span old
            omega
          · exact bound span new)
      rw [text, text, scanned, scanFrom_gap dark _ blank, spans, Literal.spansFrom_blank blank,
        ← List.append_assoc, later, pieces, pieces]
  exact general [] 0 (fun _ member => nomatch member)

end Scan

end Slot

end SelectorLang
