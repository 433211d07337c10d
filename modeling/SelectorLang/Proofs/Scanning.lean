import SelectorLang.Proofs.Reading
import SelectorLang.Proofs.Removal
import SelectorLang.Token

set_option autoImplicit false

namespace SelectorLang

namespace Piece

variable {α : Type}

def tokens : List (Piece α) → List (List Char × α)
  | [] => []
  | .other _ :: pieces => tokens pieces
  | .token lexeme value :: pieces => (lexeme, value) :: tokens pieces

theorem values_eq_map_tokens (pieces : List (Piece α)) :
    values pieces = (tokens pieces).map Prod.snd := by
  induction pieces with
  | nil => rfl
  | cons piece pieces ih =>
    cases piece with
    | other c => exact ih
    | token lexeme value => exact congrArg (value :: ·) ih

theorem mem_tokens {pieces : List (Piece α)} {token : List Char × α} :
    token ∈ tokens pieces ↔ .token token.1 token.2 ∈ pieces := by
  induction pieces with
  | nil => simp only [tokens, List.not_mem_nil]
  | cons piece pieces ih =>
    cases piece with
    | other c => simp only [tokens, ih, List.mem_cons, reduceCtorEq, false_or]
    | token lexeme value =>
      simp only [tokens, ih, List.mem_cons, Piece.token.injEq, Prod.ext_iff]

end Piece

/-- A reader of tokens, which begin with the first character of a word. -/
def Reader.Dark {α : Type} (reader : Reader α) : Prop :=
  ∀ c rest, isBlank c = true → reader (c :: rest) = none

namespace Token

variable {α : Type}

theorem readAt_of_none {reader : Reader α} {text : List Char} (failed : reader text = none) :
    readAt reader text = none := by
  simp only [readAt, failed]

theorem length_le_of_readAt {reader : Reader α} {text : List Char} {length : Nat} {value : α}
    (read : readAt reader text = some (length, value)) : length ≤ text.length := by
  simp only [readAt] at read
  split at read
  · split at read
    · cases read
      exact Nat.sub_le _ _
    · cases read
  · cases read

theorem readAt_nil (reader : Reader α) : readAt reader [] = none := by
  cases found : readAt reader [] with
  | none => rfl
  | some read =>
    obtain ⟨positive, _⟩ := readAt_bounds reader [] read.1 read.2 found
    exact absurd (length_le_of_readAt found) (Nat.not_le_of_lt positive)

/-- What a scan found at a place was read there, and the place was ready for it. -/
theorem ready_of_found {reader : Reader α} {text : List Char} {ready : Bool} {found : Nat × α}
    (read : (if ready then readAt reader text else none) = some found) :
    ready = true ∧ readAt reader text = some found := by
  cases ready with
  | true => exact ⟨rfl, read⟩
  | false => cases read

theorem words_of_endsWord {after : List Char} (ends : endsWord after = true)
    (lexeme : List Char) :
    Text.words (lexeme ++ after) = Text.words lexeme ++ Text.words after := by
  cases after with
  | nil => rw [List.append_nil, Text.words_nil, List.append_nil]
  | cons c rest =>
    rw [Text.words_append_blank lexeme rest c ends, Text.words_cons_blank ends]

/-- The words after some text, when the rest of it is scanned: the step that the whole scan
repeats. -/
theorem removal_scanFrom {reader : Reader α} (dark : reader.Dark) (literals : List Span)
    (text before : List Char) (skip offset : Nat) (start : Bool)
    (breaks : start = true → Text.Breaks before) :
    Removal (Text.words (before ++ text.drop skip))
      ((Piece.tokens (scanFrom reader literals skip offset start text)).map
        (fun token => Text.words token.1))
      (Text.words (before ++ Piece.rest (scanFrom reader literals skip offset start text))) := by
  induction text generalizing before skip offset start with
  | nil =>
    simp only [scanFrom, List.drop_nil, Piece.rest, Piece.tokens, List.map_nil]
    exact Removal.refl _
  | cons c rest ih =>
    cases skip with
    | succ skip => exact ih before skip (offset + 1) false (fun started => Bool.noConfusion started)
    | zero =>
      simp only [scanFrom, List.drop_zero]
      split
      · rename_i length value found
        obtain ⟨ready, read⟩ := ready_of_found found
        have began : start = true := by
          rw [Bool.and_eq_true] at ready
          exact ready.1
        obtain ⟨positive, ends⟩ := readAt_bounds reader (c :: rest) length value read
        obtain ⟨more, rfl⟩ : ∃ more, length = more + 1 := ⟨length - 1, by omega⟩
        rw [List.drop_succ_cons] at ends
        have first : isBlank c = false := by
          cases blank : isBlank c with
          | false => rfl
          | true =>
            rw [readAt_of_none (dark c rest blank)] at read
            cases read
        have later := ih [] more (offset + 1) false (fun started => Bool.noConfusion started)
        have source : c :: rest = (c :: rest.take more) ++ rest.drop more := by
          rw [List.cons_append, List.take_append_drop]
        simp only [Piece.rest, Piece.tokens, List.map_cons, Nat.add_sub_cancel, List.take_succ_cons]
        have space : isBlank ' ' = true := rfl
        rw [source, Text.words_append_of_breaks (breaks began),
          Text.words_append_of_breaks (breaks began), Text.words_cons_blank space,
          words_of_endsWord ends]
        exact Removal.keepAll _ (.drop _ (Text.words_cons_ne_nil first _) later)
      · simp only [Piece.rest, Piece.tokens]
        have later := ih (before ++ [c]) 0 (offset + 1) (isBlank c)
          (fun blank => Or.inr ⟨before, c, rfl, blank⟩)
        rwa [List.drop_zero, List.append_assoc, List.append_assoc] at later

/-- A scan takes out of a text the words of each token, and nothing else. -/
theorem removal_scan {reader : Reader α} (dark : reader.Dark) (text : List Char) :
    Removal (Text.words text)
      ((Piece.tokens (scan reader text)).map (fun token => Text.words token.1))
      (Text.words (Piece.rest (scan reader text))) :=
  removal_scanFrom dark (Literal.spans text) text [] 0 0 true (fun _ => Or.inl rfl)

theorem token_scanFrom {reader : Reader α} (literals : List Span) (text : List Char)
    (skip offset : Nat) (start : Bool) (lexeme : List Char) (value : α)
    (member : .token lexeme value ∈ scanFrom reader literals skip offset start text) :
    ∃ after, readAt reader (lexeme ++ after) = some (lexeme.length, value) := by
  induction text generalizing skip offset start with
  | nil => cases member
  | cons c rest ih =>
    cases skip with
    | succ skip => exact ih skip (offset + 1) false member
    | zero =>
      simp only [scanFrom] at member
      split at member
      · rename_i length found reading
        obtain ⟨_, read⟩ := ready_of_found reading
        rcases List.mem_cons.mp member with same | later
        · cases same
          refine ⟨(c :: rest).drop length, ?_⟩
          have within := length_le_of_readAt read
          rw [List.take_append_drop, List.length_take, Nat.min_eq_left within, read]
        · exact ih (length - 1) (offset + 1) false later
      · rcases List.mem_cons.mp member with same | later
        · cases same
        · exact ih 0 (offset + 1) (isBlank c) later

/-- Where a token is read, its lexeme stands at the front of the text. -/
theorem lexeme_of_readAt {reader : Reader α} {shape : List Char → α → Prop}
    (takes : reader.Takes shape) {text : List Char} {length : Nat} {value : α}
    (read : readAt reader text = some (length, value)) :
    ∃ lexeme after, text = lexeme ++ after ∧ length = lexeme.length ∧ lexeme ≠ [] ∧
      shape lexeme value ∧ endsWord after = true ∧ reader text = some (value, after) := by
  simp only [readAt] at read
  split at read
  · rename_i found after success
    split at read
    · rename_i bounds
      simp only [Option.some.injEq, Prod.mk.injEq] at read
      obtain ⟨size, rfl⟩ := read
      obtain ⟨lexeme, rfl, fits⟩ := takes _ _ _ success
      rw [List.length_append, Nat.add_sub_cancel] at size bounds
      rw [List.drop_left] at bounds
      exact ⟨lexeme, after, rfl, size.symm, List.ne_nil_of_length_pos bounds.1, fits, bounds.2,
        success⟩
    · cases read
  · cases read

/-- A token of a scan is what its reader takes off the text that begins with it. -/
theorem token_scan {reader : Reader α} {shape : List Char → α → Prop}
    (takes : reader.Takes shape) {text : List Char} {token : List Char × α}
    (member : token ∈ Piece.tokens (scan reader text)) :
    shape token.1 token.2 ∧
      ∃ after, endsWord after = true ∧ reader (token.1 ++ after) = some (token.2, after) := by
  obtain ⟨lexeme, value⟩ := token
  obtain ⟨behind, read⟩ :=
    token_scanFrom (Literal.spans text) text 0 0 true lexeme value (Piece.mem_tokens.mp member)
  obtain ⟨front, after, parts, size, _, fits, ends, success⟩ := lexeme_of_readAt takes read
  obtain ⟨rfl, rfl⟩ := List.append_inj parts size
  exact ⟨fits, behind, ends, success⟩

end Token

end SelectorLang
