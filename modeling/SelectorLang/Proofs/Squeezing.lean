import SelectorLang.Proofs.Removal
import SelectorLang.Text.Fold
import SelectorLang.Token

set_option autoImplicit false

namespace SelectorLang.Text

/-- What is left of a gap: a space, if there was anything. -/
def single (gap : List Char) : List Char := if gap.isEmpty then [] else [' ']

theorem single_all (gap : List Char) : (single gap).all (· == ' ') = true := by
  rw [single]
  split <;> rfl

theorem single_of_ne_nil {gap : List Char} (nonempty : gap ≠ []) : single gap = [' '] := by
  rw [single, List.isEmpty_eq_false_iff.mpr nonempty]
  rfl

theorem words_blank_append {gap : List Char} (blank : gap.all isBlank = true) (text : List Char) :
    words (gap ++ text) = words text := by
  induction gap with
  | nil => rfl
  | cons c rest ih =>
    rw [List.all_cons, Bool.and_eq_true] at blank
    rw [List.cons_append, words_cons_blank blank.1, ih blank.2]

theorem words_append_blanks {gap : List Char} (blank : gap.all isBlank = true) (text : List Char) :
    words (text ++ gap) = words text := by
  cases gap with
  | nil => rw [List.append_nil]
  | cons c rest =>
    rw [List.all_cons, Bool.and_eq_true] at blank
    rw [words_append_blank text rest c blank.1, words_eq_nil blank.2, List.append_nil]

theorem words_ne_nil {text : List Char} (dark : Token.endsWord text = false) : words text ≠ [] := by
  cases text with
  | nil => cases dark
  | cons c rest => exact words_cons_ne_nil dark rest

theorem words_cons_dark {c : Char} (dark : isBlank c = false) {text : List Char}
    (goesOn : Token.endsWord text = false) :
    words (c :: text) = (words text).modifyHead (c :: ·) := by
  cases text with
  | nil => cases goesOn
  | cons d rest =>
    have next : isBlank d = false := goesOn
    have inner := cut_ne_nil isBlank rest
    cases parts : cut isBlank rest with
    | nil => exact absurd parts inner
    | cons part others => simp [words, cut, dark, next, parts]

theorem words_append_dark {front : List Char} (dark : ∀ c ∈ front, isBlank c = false)
    {text : List Char} (goesOn : Token.endsWord text = false) :
    words (front ++ text) = (words text).modifyHead (front ++ ·) := by
  induction front with
  | nil => cases parts : words text <;> simp [parts]
  | cons c others ih =>
    have behind := ih (fun d member => dark d (List.mem_cons_of_mem c member))
    have whole : Token.endsWord (others ++ text) = false := by
      cases others with
      | nil => exact goesOn
      | cons d more => exact dark d (List.mem_cons_of_mem c List.mem_cons_self)
    rw [List.cons_append, words_cons_dark (dark c List.mem_cons_self) whole, behind,
      List.modifyHead_modifyHead]
    rfl

theorem unwords_modifyHead (front : List Char) {words : List (List Char)} (nonempty : words ≠ []) :
    unwords (words.modifyHead (front ++ ·)) = front ++ unwords words := by
  match words with
  | [] => exact absurd rfl nonempty
  | [word] => rfl
  | word :: next :: others => exact List.append_assoc front word (' ' :: unwords (next :: others))

theorem unwords_cons (word : List Char) {words : List (List Char)} (nonempty : words ≠ []) :
    unwords (word :: words) = word ++ ' ' :: unwords words := by
  cases words with
  | nil => exact absurd rfl nonempty
  | cons next others => rfl

structure IsWord (chars : List Char) : Prop where
  nonempty : chars ≠ []
  dark : ∀ c ∈ chars, isBlank c = false

theorem isWord_of_all {accepts : Char → Bool} {chars : List Char} (nonempty : chars ≠ [])
    (all : chars.all accepts = true) (dark : ∀ c, accepts c = true → isBlank c = false) :
    IsWord chars :=
  ⟨nonempty, fun c member => dark c (List.all_eq_true.mp all c member)⟩

namespace IsWord

variable {word gap text : List Char} (isWord : IsWord word)

include isWord

theorem goesOn (text : List Char) : Token.endsWord (word ++ text) = false := by
  cases chars : word with
  | nil => exact absurd chars isWord.nonempty
  | cons c rest =>
    apply isWord.dark c
    rw [chars]
    exact List.mem_cons_self

theorem goesOn_self : Token.endsWord word = false := by
  rw [← List.append_nil word]
  exact isWord.goesOn []

theorem squeeze : Text.squeeze word = word := by
  rw [Text.squeeze, words_of_dark isWord.nonempty isWord.dark]
  rfl

/-- The gap behind a word becomes a single space, or stays empty. -/
theorem squeeze_append (blank : gap.all isBlank = true) (goesOn : Token.endsWord text = false) :
    Text.squeeze (word ++ (gap ++ text)) = word ++ (single gap ++ Text.squeeze text) := by
  cases gap with
  | nil =>
    simp only [Text.squeeze, List.nil_append, words_append_dark isWord.dark goesOn,
      unwords_modifyHead word (words_ne_nil goesOn)]
    rfl
  | cons c rest =>
    rw [List.all_cons, Bool.and_eq_true] at blank
    rw [Text.squeeze, List.cons_append, words_append_blank word (rest ++ text) c blank.1,
      words_of_dark isWord.nonempty isWord.dark, words_blank_append blank.2, List.singleton_append,
      unwords_cons word (words_ne_nil goesOn)]
    rfl

end IsWord

/-- The blanks around a text do not matter. -/
theorem squeeze_surrounded {lead trail : List Char} (before : lead.all isBlank = true)
    (after : trail.all isBlank = true) (text : List Char) :
    squeeze (lead ++ text ++ trail) = squeeze text := by
  rw [squeeze, words_append_blanks after, words_blank_append before, squeeze]

/-- What holds of the characters with so many codes in a row holds of every one of them. -/
theorem code_induction (holds : Char → Prop) {first count : Nat}
    (codes : ∀ code ∈ List.range' first count, holds (Char.ofNat code)) {c : Char}
    (low : first ≤ c.toNat) (high : c.toNat < first + count) : holds c := by
  have found := codes c.toNat (List.mem_range'_1.mpr ⟨low, high⟩)
  rwa [Char.ofNat_toNat] at found

theorem capital_induction (holds : Char → Prop)
    (codes : ∀ code ∈ List.range' 65 26, holds (Char.ofNat code)) {c : Char}
    (capital : ('A' ≤ c && c ≤ 'Z') = true) : holds c := by
  simp only [Bool.and_eq_true, decide_eq_true_eq, Char.le_def, UInt32.le_iff_toNat_le] at capital
  exact code_induction holds codes capital.1 (Nat.lt_succ_of_le capital.2)

theorem isBlank_foldChar (c : Char) : isBlank (foldChar c) = isBlank c := by
  by_cases capital : ('A' ≤ c && c ≤ 'Z') = true
  · exact capital_induction (fun d => isBlank (foldChar d) = isBlank d) (by decide) capital
  · rw [foldChar, if_neg capital]
    split
    · rename_i kelvin
      rw [beq_iff_eq.mp kelvin]
      rfl
    · rfl

/-- Besides the ASCII capitals, the Kelvin sign alone has another lower case. -/
theorem foldChar_eq_toLower {c : Char} (other : c ≠ '\u212A') : foldChar c = c.toLower := by
  by_cases capital : ('A' ≤ c && c ≤ 'Z') = true
  · exact capital_induction (fun d => foldChar d = d.toLower) (by decide) capital
  · have outside : ¬(c.val ≥ 'A'.val ∧ c.val ≤ 'Z'.val) := by
      simpa only [Bool.and_eq_true, decide_eq_true_eq, Char.le_def] using capital
    rw [foldChar, if_neg capital, if_neg (by rwa [beq_iff_eq])]
    show c = dite (c.val ≥ 'A'.val ∧ c.val ≤ 'Z'.val) _ (fun _ => c)
    rw [dif_neg outside]

theorem cut_map {f : Char → Char} (keeps : ∀ c, isBlank (f c) = isBlank c) (text : List Char) :
    cut isBlank (text.map f) = (cut isBlank text).map (List.map f) := by
  induction text with
  | nil => rfl
  | cons c rest ih =>
    simp only [List.map_cons, cut, keeps, ih]
    split
    · rfl
    · cases cut isBlank rest <;> rfl

theorem words_map {f : Char → Char} (keeps : ∀ c, isBlank (f c) = isBlank c) (text : List Char) :
    words (text.map f) = (words text).map (List.map f) := by
  simp only [words, cut_map keeps, List.filter_map, Function.comp_def, List.isEmpty_map]

theorem unwords_map {f : Char → Char} (space : f ' ' = ' ') (words : List (List Char)) :
    unwords (words.map (List.map f)) = (unwords words).map f := by
  induction words with
  | nil => rfl
  | cons word rest ih =>
    cases rest with
    | nil => rfl
    | cons next others =>
      have more : (next :: others).map (List.map f) ≠ [] := List.cons_ne_nil _ _
      rw [List.map_cons, unwords_cons (word.map f) more, ih,
        unwords_cons word (List.cons_ne_nil next others), List.map_append, List.map_cons, space]

theorem fold_squeeze (text : List Char) : fold (squeeze text) = squeeze (fold text) := by
  rw [fold, fold, squeeze, squeeze, words_map isBlank_foldChar, unwords_map rfl]

theorem fold_of_toLower {text lower : List Char} (same : text.map Char.toLower = lower)
    (absent : '\u212A' ∉ lower) : fold text = lower := by
  rw [← same, fold]
  apply List.map_congr_left
  intro c member
  apply foldChar_eq_toLower
  rintro rfl
  apply absent
  rw [← same]
  exact List.mem_map_of_mem member

end SelectorLang.Text
