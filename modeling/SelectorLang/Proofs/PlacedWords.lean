import SelectorLang.Proofs.Seams
import SelectorLang.Proofs.Words

set_option autoImplicit false

namespace SelectorLang

structure PlacedWord where
  offset : Nat
  chars : List Char
deriving DecidableEq, Repr

def PlacedWord.span (word : PlacedWord) : Span := ⟨word.offset, word.offset + word.chars.length⟩

theorem Span.Within.mono {high low lower : Nat} {spans : List Span} (within : Within high low spans)
    (earlier : lower ≤ low) : Within high lower spans := by
  cases spans with
  | nil => trivial
  | cons span others => exact ⟨Nat.le_trans earlier within.1, within.2⟩

theorem Span.Within.sublist {high low : Nat} {kept spans : List Span} (sub : kept.Sublist spans)
    (within : Within high low spans) : Within high low kept := by
  induction sub generalizing low with
  | slnil => trivial
  | cons span _ ih =>
    obtain ⟨start, proper, _, behind⟩ := within
    exact (ih behind).mono (by omega)
  | cons_cons span _ ih =>
    obtain ⟨start, proper, stop, behind⟩ := within
    exact ⟨start, proper, stop, ih behind⟩

namespace Text

/-- The words that begin in a text from an offset on: where a blank stands in front and, if `start`
is set, at the offset itself. -/
def placedFrom : Bool → Nat → List Char → List PlacedWord
  | _, _, [] => []
  | start, offset, c :: rest =>
    let behind := placedFrom (isBlank c) (offset + 1) rest
    if start && !isBlank c then ⟨offset, (c :: rest).takeWhile (fun d => !isBlank d)⟩ :: behind
    else behind

def placedWords (text : List Char) : List PlacedWord := placedFrom true 0 text

theorem placedFrom_gap {c : Char} (blank : isBlank c = true) (start : Bool) (offset : Nat)
    (rest : List Char) :
    placedFrom start offset (c :: rest) = placedFrom true (offset + 1) rest := by
  simp only [placedFrom, blank, Bool.not_true, Bool.and_false, Bool.false_eq_true, ↓reduceIte]

/-- Where a word ends, no other one begins at once. -/
theorem placedFrom_ends {after : List Char} (ends : Token.endsWord after = true)
    (start other : Bool)
    (offset : Nat) : placedFrom start offset after = placedFrom other offset after := by
  cases after with
  | nil => rfl
  | cons c rest => rw [placedFrom_gap ends, placedFrom_gap ends]

theorem placedFrom_dark {word : List Char} (dark : ∀ c ∈ word, isBlank c = false) (offset : Nat)
    (after : List Char) :
    placedFrom false offset (word ++ after) = placedFrom false (offset + word.length) after := by
  induction word generalizing offset with
  | nil => rfl
  | cons c others ih =>
    rw [add_length_cons, ← ih (fun d member => dark d (List.mem_cons_of_mem c member)),
      List.cons_append, placedFrom, dark c List.mem_cons_self]
    rfl

theorem placedFrom_word {word after : List Char} (nonempty : word ≠ [])
    (dark : ∀ c ∈ word, isBlank c = false) (ends : Token.endsWord after = true) (offset : Nat) :
    placedFrom true offset (word ++ after) =
      ⟨offset, word⟩ :: placedFrom true (offset + word.length) after := by
  have own : (word ++ after).takeWhile (fun d => !isBlank d) = word := by
    have stops : Reader.Stops (fun d => !isBlank d) after :=
      Reader.stops_of_endsWord ends (fun c blank => by rw [blank]; rfl)
    have shown : ∀ c ∈ word, (!isBlank c) = true := fun c member => by rw [dark c member]; rfl
    rw [List.takeWhile_append_of_pos shown, stops.takeWhile, List.append_nil]
  obtain ⟨c, others, rfl⟩ := List.exists_cons_of_ne_nil nonempty
  have first := dark c List.mem_cons_self
  have tail := placedFrom_dark (fun d member => dark d (List.mem_cons_of_mem c member)) (offset + 1)
    after
  rw [List.cons_append] at own ⊢
  rw [placedFrom, own, first, tail, add_length_cons, placedFrom_ends ends false true]
  rfl

/-- The placed words are those between the blanks of the text. -/
theorem chars_placedFrom (offset : Nat) (text : List Char) :
    (placedFrom true offset text).map PlacedWord.chars = words text := by
  induction text using word_induction generalizing offset with
  | nil => rfl
  | gap c rest blank ih => rw [placedFrom_gap blank, ih, words_cons_blank blank]
  | word word after nonempty dark ends ih =>
    rw [placedFrom_word nonempty dark ends, List.map_cons, ih, Token.words_of_endsWord ends,
      words_of_dark nonempty dark, List.singleton_append]

theorem within_placedFrom (offset : Nat) (text : List Char) :
    Span.Within (offset + text.length) offset
      ((placedFrom true offset text).map PlacedWord.span) := by
  induction text using word_induction generalizing offset with
  | nil => trivial
  | gap c rest blank ih =>
    have behind := ih (offset + 1)
    rw [placedFrom_gap blank, add_length_cons]
    exact behind.mono (Nat.le_succ offset)
  | word word after nonempty dark ends ih =>
    have behind := ih (offset + word.length)
    have positive := List.length_pos_iff.mpr nonempty
    rw [placedFrom_word nonempty dark ends, List.length_append, ← Nat.add_assoc]
    refine ⟨Nat.le_refl _, ?_, ?_, behind⟩
    · simp only [PlacedWord.span]
      omega
    · simp only [PlacedWord.span]
      omega

/-- A word of a text divides it; behind the word stand the words after it. -/
theorem placedFrom_split {start : Bool} {offset : Nat} {text : List Char}
    {passed others : List PlacedWord} {word : PlacedWord}
    (found : placedFrom start offset text = passed ++ word :: others) :
    ∃ front after, text = front ++ (word.chars ++ after) ∧ word.offset = offset + front.length ∧
      word.chars ≠ [] ∧ (∀ c ∈ word.chars, isBlank c = false) ∧
      others = placedFrom false word.span.stop after := by
  induction text generalizing start offset passed with
  | nil => simp [placedFrom] at found
  | cons c rest ih =>
    have later : ∀ {front : List PlacedWord},
        placedFrom (isBlank c) (offset + 1) rest = front ++ word :: others →
        ∃ front after, c :: rest = front ++ (word.chars ++ after) ∧
          word.offset = offset + front.length ∧ word.chars ≠ [] ∧
          (∀ c ∈ word.chars, isBlank c = false) ∧
          others = placedFrom false word.span.stop after := by
      intro _ behind
      obtain ⟨front, after, rfl, place, facts⟩ := ih behind
      exact ⟨c :: front, after, rfl, by rw [place, add_length_cons], facts⟩
    by_cases begins : (start && !isBlank c) = true
    · rw [Bool.and_eq_true, Bool.not_eq_true'] at begins
      obtain ⟨rfl, dark⟩ := begins
      obtain ⟨tail, after, rfl, plain, ends⟩ := exists_tail rest
      have whole : ∀ d ∈ c :: tail, isBlank d = false := List.forall_mem_cons.mpr ⟨dark, plain⟩
      have own := placedFrom_word (List.cons_ne_nil c tail) whole ends offset
      cases passed with
      | nil =>
        obtain ⟨rfl, rfl⟩ := List.cons.inj (own.symm.trans found)
        exact ⟨[], after, rfl, rfl, List.cons_ne_nil c tail, whole,
          placedFrom_ends ends true false _⟩
      | cons first passed =>
        rw [placedFrom, dark] at found
        exact later (dark ▸ (List.cons.inj found).2)
    · rw [placedFrom, if_neg begins] at found
      exact later found

/-- The words that are still ahead of a cursor at an offset. -/
def ahead (text : List Char) (offset : Nat) : List PlacedWord :=
  placedFrom (offset == 0) offset (text.drop offset)

/-- Ahead of a cursor that stands in a word or at its end are the words after it. -/
theorem ahead_split {text : List Char} {offset : Nat} {passed others : List PlacedWord}
    {word : PlacedWord} (found : ahead text offset = passed ++ word :: others) :
    offset ≤ word.offset ∧ word.offset < word.span.stop ∧ word.span.stop ≤ text.length ∧
      ahead text (word.offset + 1) = others ∧ ahead text word.span.stop = others := by
  obtain ⟨front, after, parts, place, nonempty, dark, rfl⟩ := placedFrom_split found
  have positive := List.length_pos_iff.mpr nonempty
  have size := congrArg List.length parts
  simp only [List.length_drop, List.length_append] at size
  have here : text.drop word.offset = word.chars ++ after := by
    rw [place, ← List.drop_drop, parts, List.drop_left]
  have stop : text.drop word.span.stop = after := by
    rw [PlacedWord.span, ← List.drop_drop, here, List.drop_left]
  obtain ⟨c, others, chars⟩ := List.exists_cons_of_ne_nil nonempty
  have next : text.drop (word.offset + 1) = others ++ after := by
    rw [← List.drop_drop, here, chars]
    rfl
  have width : word.offset + 1 + others.length = word.span.stop := by
    simp only [PlacedWord.span, chars, List.length_cons]
    omega
  rw [chars] at dark
  refine ⟨by omega, by simp only [PlacedWord.span]; omega, by simp only [PlacedWord.span]; omega,
    ?_, ?_⟩
  · rw [ahead, next, show (word.offset + 1 == 0) = false from rfl,
      placedFrom_dark (fun d member => dark d (List.mem_cons_of_mem c member)), width]
  · have later : (word.span.stop == 0) = false := by
      rw [beq_eq_false_iff_ne]
      omega
    rw [ahead, stop, later]

end Text

end SelectorLang
