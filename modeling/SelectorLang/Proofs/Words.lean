import SelectorLang.Proofs.Slots

set_option autoImplicit false

namespace SelectorLang

namespace Text

/-- A text begins with the rest of a word, if only an empty one. -/
theorem exists_tail (text : List Char) :
    ∃ tail after, text = tail ++ after ∧ (∀ c ∈ tail, isBlank c = false) ∧
      Token.endsWord after = true := by
  induction text with
  | nil => exact ⟨[], [], rfl, nofun, rfl⟩
  | cons c rest ih =>
    cases blank : isBlank c with
    | true => exact ⟨[], c :: rest, rfl, nofun, blank⟩
    | false =>
      obtain ⟨tail, after, rfl, dark, ends⟩ := ih
      exact ⟨c :: tail, after, rfl, List.forall_mem_cons.mpr ⟨blank, dark⟩, ends⟩

/-- What holds at the end of a text, and in front of a blank and of a word if it holds behind them,
holds of every text. -/
@[elab_as_elim]
theorem word_induction {holds : List Char → Prop} (nil : holds [])
    (gap : ∀ c rest, isBlank c = true → holds rest → holds (c :: rest))
    (word : ∀ word after, word ≠ [] → (∀ c ∈ word, isBlank c = false) →
      Token.endsWord after = true → holds after → holds (word ++ after))
    (text : List Char) : holds text := by
  induction size : text.length using Nat.strongRecOn generalizing text with
  | ind size ih =>
    cases text with
    | nil => exact nil
    | cons c rest =>
      subst size
      cases blank : isBlank c with
      | true => exact gap c rest blank (ih rest.length (Nat.lt_succ_self _) rest rfl)
      | false =>
        obtain ⟨tail, after, rfl, dark, ends⟩ := exists_tail rest
        have shorter : after.length < (c :: (tail ++ after)).length := by
          rw [List.length_cons, List.length_append]
          omega
        exact word (c :: tail) after (List.cons_ne_nil c tail)
          (List.forall_mem_cons.mpr ⟨blank, dark⟩) ends (ih after.length shorter after rfl)

/-- The first word of a text is known from where it ends. -/
theorem word_unique {word other after behind : List Char} (same : word ++ after = other ++ behind)
    (dark : ∀ c ∈ word, isBlank c = false) (otherDark : ∀ c ∈ other, isBlank c = false)
    (ends : Token.endsWord after = true) (otherEnds : Token.endsWord behind = true) :
    word = other := by
  induction word generalizing other with
  | nil =>
    cases other with
    | nil => rfl
    | cons d others =>
      rw [List.nil_append] at same
      subst same
      have blank : isBlank d = true := ends
      rw [otherDark d List.mem_cons_self] at blank
      cases blank
  | cons c word ih =>
    cases other with
    | nil =>
      rw [List.nil_append] at same
      subst same
      have blank : isBlank c = true := otherEnds
      rw [dark c List.mem_cons_self] at blank
      cases blank
    | cons d others =>
      rw [List.cons_append, List.cons_append, List.cons.injEq] at same
      rw [same.1, ih same.2 (fun e member => dark e (List.mem_cons_of_mem c member))
        (fun e member => otherDark e (List.mem_cons_of_mem d member))]

end Text

structure MarkedWord where
  chars : List Char
  masked : Bool
deriving DecidableEq, Repr

namespace Literal

def surrounds (literals : List Span) (offset : Nat) : Bool :=
  literals.any (fun literal => literal.strictlyInside offset)

/-- The words and blanks of a text that begins at an offset. -/
def slotsFrom (literals : List Span) : Nat → List Char → List (Slot MarkedWord)
  | _, [] => []
  | offset, c :: rest =>
    let behind := slotsFrom literals (offset + 1) rest
    if isBlank c then .gap c :: behind
    else match behind with
      | .word more :: others => .word ⟨c :: more.chars, surrounds literals offset⟩ :: others
      | others => .word ⟨[c], surrounds literals offset⟩ :: others

def slots (text : List Char) : List (Slot MarkedWord) := slotsFrom (spans text) 0 text

def markedWords (text : List Char) : List MarkedWord := Slot.words (slots text)

/-- The words of a text that do not begin inside a literal. -/
def openWords (text : List Char) : List (List Char) :=
  ((markedWords text).filter (fun word => !word.masked)).map MarkedWord.chars

variable (literals : List Span)

theorem slotsFrom_gap {c : Char} (blank : isBlank c = true) (offset : Nat) (rest : List Char) :
    slotsFrom literals offset (c :: rest) = .gap c :: slotsFrom literals (offset + 1) rest := by
  simp only [slotsFrom, blank, ↓reduceIte]

theorem slotsFrom_word {word after : List Char} (nonempty : word ≠ [])
    (dark : ∀ c ∈ word, isBlank c = false) (ends : Token.endsWord after = true) (offset : Nat) :
    slotsFrom literals offset (word ++ after) =
      .word ⟨word, surrounds literals offset⟩ ::
        slotsFrom literals (offset + word.length) after := by
  induction word generalizing offset with
  | nil => exact absurd rfl nonempty
  | cons c others ih =>
    have first : isBlank c = false := dark c List.mem_cons_self
    rw [Text.add_length_cons, List.cons_append, slotsFrom]
    simp only [first, Bool.false_eq_true, ↓reduceIte]
    by_cases last : others = []
    · subst last
      rw [List.nil_append, List.length_nil, Nat.add_zero]
      cases after with
      | nil => rfl
      | cons d behind => rw [slotsFrom_gap literals ends]
    · rw [ih last (fun d member => dark d (List.mem_cons_of_mem c member))]

theorem text_slotsFrom (offset : Nat) (text : List Char) :
    Slot.text MarkedWord.chars (slotsFrom literals offset text) = text := by
  induction text using Text.word_induction generalizing offset with
  | nil => rfl
  | gap c rest blank ih => rw [slotsFrom_gap literals blank, Slot.text, ih]
  | word word after nonempty dark ends ih =>
    rw [slotsFrom_word literals nonempty dark ends, Slot.text, ih]

theorem chars_slotsFrom (offset : Nat) (text : List Char) :
    (Slot.words (slotsFrom literals offset text)).map MarkedWord.chars = Text.words text := by
  induction text using Text.word_induction generalizing offset with
  | nil => rfl
  | gap c rest blank ih =>
    rw [slotsFrom_gap literals blank, Slot.words, ih, Text.words_cons_blank blank]
  | word word after nonempty dark ends ih =>
    rw [slotsFrom_word literals nonempty dark ends, Slot.words, List.map_cons, ih,
      Token.words_of_endsWord ends, Text.words_of_dark nonempty dark, List.singleton_append]

end Literal

/-- A reader of single words: in front of a word it takes all of it, or nothing. -/
structure Reader.TakesWords {α : Type} (reader : Reader α) (answer : List Char → Option α) :
    Prop where
  dark : reader.Dark
  reads : ∀ word after, word ≠ [] → (∀ c ∈ word, isBlank c = false) →
    Token.endsWord after = true →
      Token.readAt reader (word ++ after) = (answer word).map (fun value => (word.length, value))

/-- A reader whose lexemes have no blanks takes the words that it claims. -/
theorem Reader.Takes.takesWords {α : Type} {reader : Reader α} {answer : List Char → Option α}
    (takes : reader.Takes (fun lexeme value => (∀ c ∈ lexeme, isBlank c = false) ∧
      answer lexeme = some value)) (dark : reader.Dark)
    (claims : ∀ word value, answer word = some value → Token.Claims reader word value) :
    reader.TakesWords answer where
  dark := dark
  reads := by
    intro word after nonempty plain ends
    cases found : answer word with
    | some value =>
      rw [Token.readAt_append nonempty (claims word value found after ends), if_pos ends]
      rfl
    | none =>
      cases read : Token.readAt reader (word ++ after) with
      | none => rfl
      | some result =>
        obtain ⟨lexeme, behind, parts, _, _, ⟨blankless, answered⟩, closed, _⟩ :=
          Token.lexeme_of_readAt takes read
        have same := Text.word_unique parts plain blankless ends closed
        rw [← same, found] at answered
        cases answered

def MarkedWord.answer {α : Type} (answer : List Char → Option α) (word : MarkedWord) : Option α :=
  if word.masked then none else answer word.chars

namespace Token

variable {α : Type} {reader : Reader α} {answer : List Char → Option α} (literals : List Span)

/-- Where a word ends, it does not matter to a scan what stands in front. -/
theorem scanFrom_ends (dark : reader.Dark) {text : List Char} (ends : endsWord text = true)
    (offset : Nat) (start other : Bool) :
    scanFrom reader literals 0 offset start text =
      scanFrom reader literals 0 offset other text := by
  cases text with
  | nil => rfl
  | cons c rest => rw [Slot.scanFrom_gap dark literals ends, Slot.scanFrom_gap dark literals ends]

/-- A word is a token, or all of its characters are left. -/
theorem scanFrom_word (takes : reader.TakesWords answer) {word after : List Char}
    (nonempty : word ≠ []) (dark : ∀ c ∈ word, isBlank c = false) (ends : endsWord after = true)
    (offset : Nat) :
    ∃ start, scanFrom reader literals 0 offset true (word ++ after) =
      Slot.wordPieces word
          (MarkedWord.answer answer ⟨word, Literal.surrounds literals offset⟩) ++
        scanFrom reader literals 0 (offset + word.length) start after := by
  have read := takes.reads word after nonempty dark ends
  by_cases masked : Literal.surrounds literals offset = true
  · have closed :
        (true && !literals.any (fun literal => literal.strictlyInside offset)) = false := by
      simpa [Literal.surrounds] using masked
    simp only [MarkedWord.answer, masked, ↓reduceIte]
    exact scanFrom_dark dark literals offset true (Or.inl closed)
  · simp only [MarkedWord.answer, masked, Bool.false_eq_true, ↓reduceIte]
    cases found : answer word with
    | none =>
      rw [found, Option.map_none] at read
      exact scanFrom_dark dark literals offset true (Or.inr read)
    | some value =>
      rw [found, Option.map_some] at read
      obtain ⟨c, others, rfl⟩ := List.exists_cons_of_ne_nil nonempty
      have ready :
          (true && !literals.any (fun literal => literal.strictlyInside offset)) = true := by
        simpa [Literal.surrounds] using masked
      refine ⟨false, ?_⟩
      rw [List.cons_append] at read ⊢
      rw [scanFrom_taken ready read, List.length_cons,
        show offset + 1 + others.length = offset + (others.length + 1) by omega]
      rfl

/-- A scan takes the words that have an answer and do not begin inside a literal. -/
theorem scanFrom_slots (takes : reader.TakesWords answer) (offset : Nat) (text : List Char) :
    scanFrom reader literals 0 offset true text =
      Slot.pieces MarkedWord.chars (MarkedWord.answer answer)
        (Literal.slotsFrom literals offset text) := by
  induction text using Text.word_induction generalizing offset with
  | nil => rfl
  | gap c rest blank ih =>
    rw [Slot.scanFrom_gap takes.dark literals blank, Literal.slotsFrom_gap literals blank,
      Slot.pieces, ih]
  | word word after nonempty dark ends ih =>
    obtain ⟨start, front⟩ := scanFrom_word literals takes nonempty dark ends offset
    rw [front, scanFrom_ends literals takes.dark ends _ start true, ih,
      Literal.slotsFrom_word literals nonempty dark ends, Slot.pieces]

theorem scan_slots (takes : reader.TakesWords answer) (text : List Char) :
    scan reader text =
      Slot.pieces MarkedWord.chars (MarkedWord.answer answer) (Literal.slots text) :=
  scanFrom_slots (Literal.spans text) takes 0 text

/-- The tokens of a scan are the open words with an answer, in order. -/
theorem tokens_scan (takes : reader.TakesWords answer) (text : List Char) :
    Piece.tokens (scan reader text) =
      (Literal.openWords text).filterMap (fun word => (answer word).map (word, ·)) := by
  rw [scan_slots takes, Slot.tokens_pieces, Literal.openWords, Literal.markedWords,
    List.filterMap_map, List.filterMap_filter]
  congr 1
  funext word
  by_cases masked : word.masked = true
  · simp [MarkedWord.answer, masked]
  · simp [MarkedWord.answer, masked]

theorem values_scan (takes : reader.TakesWords answer) (text : List Char) :
    Piece.values (scan reader text) = (Literal.openWords text).filterMap answer := by
  rw [Piece.values_eq_map_tokens, tokens_scan takes, List.map_filterMap]
  simp [Option.map_map, Function.comp_def]

end Token

end SelectorLang
