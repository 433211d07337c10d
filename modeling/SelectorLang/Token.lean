import SelectorLang.Literal
/-!
Tokens of a text.

A token is read at the start of a word, has to end where a word ends, and may hold blanks inside its
literals. Scanning a text for one kind of token divides it into the tokens found and the characters
between them; cutting the tokens out leaves one space for each.
-/

set_option autoImplicit false

namespace SelectorLang

/-- A part of a scanned text. -/
inductive Piece (α : Type) where
  | other (c : Char)
  | token (lexeme : List Char) (value : α)
deriving Repr

namespace Piece

variable {α : Type}

/-- The scanned text with a space for each token. -/
def rest : List (Piece α) → List Char
  | [] => []
  | .other c :: pieces => c :: rest pieces
  | .token _ _ :: pieces => ' ' :: rest pieces

def source : Piece α → List Char
  | .other c => [c]
  | .token lexeme _ => lexeme

def values : List (Piece α) → List α
  | [] => []
  | .other _ :: pieces => values pieces
  | .token _ value :: pieces => value :: values pieces

end Piece

namespace Token

variable {α : Type}

/-- Whether a word may end in front of the text. -/
def endsWord : List Char → Bool
  | [] => true
  | c :: _ => isBlank c

/-- Reads a token at the front of a text: its length, which is not zero, and what it says. -/
def readAt (reader : Reader α) (text : List Char) : Option (Nat × α) :=
  match reader text with
  | some (value, after) =>
    let length := text.length - after.length
    if 0 < length ∧ endsWord (text.drop length) then some (length, value) else none
  | none => none

/-- The pieces of a text from an offset on, after leaving out `skip` characters. Tokens are read
where `start` tells that a word may begin and no literal stands around the offset. -/
def scanFrom (reader : Reader α) (literals : List Span) :
    Nat → Nat → Bool → List Char → List (Piece α)
  | _, _, _, [] => []
  | skip + 1, offset, _, _ :: rest => scanFrom reader literals skip (offset + 1) false rest
  | 0, offset, start, c :: rest =>
    let found :=
      if start && !literals.any (fun literal => literal.strictlyInside offset)
      then readAt reader (c :: rest) else none
    match found with
    | some (length, value) =>
      .token ((c :: rest).take length) value ::
        scanFrom reader literals (length - 1) (offset + 1) false rest
    | none => .other c :: scanFrom reader literals 0 (offset + 1) (isBlank c) rest

def scan (reader : Reader α) (text : List Char) : List (Piece α) :=
  scanFrom reader (Literal.spans text) 0 0 true text

/-- A token is not empty and ends where a word ends. -/
theorem readAt_bounds (reader : Reader α) (text : List Char) (length : Nat) (value : α)
    (found : readAt reader text = some (length, value)) :
    0 < length ∧ endsWord (text.drop length) = true := by
  simp only [readAt] at found
  split at found
  · split at found
    · rename_i bounds
      simp only [Option.some.injEq, Prod.mk.injEq] at found
      rw [← found.1]
      exact bounds
    · exact absurd found (by simp)
  · exact absurd found (by simp)

theorem source_scanFrom (reader : Reader α) (literals : List Span) (text : List Char)
    (skip offset : Nat) (start : Bool) :
    (scanFrom reader literals skip offset start text).flatMap Piece.source = text.drop skip := by
  induction text generalizing skip offset start with
  | nil => simp only [scanFrom, List.flatMap_nil, List.drop_nil]
  | cons c rest ih =>
    cases skip with
    | succ skip => simp only [scanFrom, ih, List.drop_succ_cons]
    | zero =>
      simp only [scanFrom]
      split
      · rename_i length value found
        have bounds : 0 < length := by
          split at found
          · exact (readAt_bounds reader (c :: rest) length value found).1
          · exact absurd found (by simp)
        obtain ⟨more, rfl⟩ : ∃ more, length = more + 1 := ⟨length - 1, by omega⟩
        simp only [List.flatMap_cons, Piece.source, ih, Nat.add_sub_cancel, List.take_succ_cons,
          List.cons_append, List.take_append_drop, List.drop_zero]
      · simp only [List.flatMap_cons, Piece.source, ih, List.singleton_append, List.drop_zero]

/-- Scanning loses nothing: the pieces make up the text. -/
theorem source_scan (reader : Reader α) (text : List Char) :
    (scan reader text).flatMap Piece.source = text :=
  source_scanFrom reader (Literal.spans text) text 0 0 true

end Token

end SelectorLang
