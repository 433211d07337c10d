import SelectorLang.Text.Blank

set_option autoImplicit false

namespace SelectorLang

/-- The last list is the first one with the given runs taken out, each of them a contiguous part
that is not empty. -/
inductive Removal {α : Type} : List α → List (List α) → List α → Prop where
  | nil : Removal [] [] []
  | keep (item : α) {before after : List α} {runs : List (List α)}
      (others : Removal before runs after) : Removal (item :: before) runs (item :: after)
  | drop (run : List α) {before after : List α} {runs : List (List α)} (nonempty : run ≠ [])
      (others : Removal before runs after) : Removal (run ++ before) (run :: runs) after

namespace Removal

variable {α : Type} {before middle after : List α} {runs others : List (List α)}

theorem refl (items : List α) : Removal items [] items := by
  induction items with
  | nil => exact .nil
  | cons item rest ih => exact .keep item ih

theorem append {before' after' : List α} {runs' : List (List α)}
    (front : Removal before runs after) (back : Removal before' runs' after') :
    Removal (before ++ before') (runs ++ runs') (after ++ after') := by
  induction front with
  | nil => exact back
  | keep item _ ih => exact .keep item ih
  | drop run nonempty _ ih =>
    rw [List.append_assoc]
    exact .drop run nonempty ih

theorem keepAll (items : List α) (rest : Removal before runs after) :
    Removal (items ++ before) runs (items ++ after) :=
  (refl items).append rest

/-- What stays of a list in two parts stays of its own part. -/
theorem split (front back : List α) (removal : Removal before runs (front ++ back)) :
    ∃ left right leftRuns rightRuns, before = left ++ right ∧ runs = leftRuns ++ rightRuns ∧
      Removal left leftRuns front ∧ Removal right rightRuns back := by
  generalize result : front ++ back = all at removal
  induction removal generalizing front with
  | nil =>
    obtain ⟨rfl, rfl⟩ := List.append_eq_nil_iff.mp result
    exact ⟨[], [], [], [], rfl, rfl, .nil, .nil⟩
  | @keep item before after runs removal ih =>
    cases front with
    | nil =>
      rw [List.nil_append] at result
      rw [result]
      exact ⟨[], item :: before, [], runs, rfl, rfl, .nil, .keep item removal⟩
    | cons first front =>
      rw [List.cons_append, List.cons.injEq] at result
      obtain ⟨rfl, result⟩ := result
      obtain ⟨left, right, leftRuns, rightRuns, rfl, rfl, leftOk, rightOk⟩ := ih front result
      exact ⟨first :: left, right, leftRuns, rightRuns, rfl, rfl, .keep first leftOk, rightOk⟩
  | drop run nonempty _ ih =>
    obtain ⟨left, right, leftRuns, rightRuns, rfl, rfl, leftOk, rightOk⟩ := ih front result
    refine ⟨run ++ left, right, run :: leftRuns, rightRuns, ?_, rfl, .drop run nonempty leftOk,
      rightOk⟩
    rw [List.append_assoc]

/-- The first run of a removal that leaves nothing stands at the front. -/
theorem cons_all {run : List α} (removal : Removal before (run :: runs) []) :
    ∃ rest, before = run ++ rest ∧ Removal rest runs [] := by
  cases removal with
  | drop _ _ others => exact ⟨_, rfl, others⟩

/-- What stayed can go too, as one more run: its items join the runs behind them. -/
theorem dropKept (removal : Removal before runs after) (some : after ≠ []) :
    ∃ all, Removal before all [] ∧ all.length = runs.length + 1 := by
  induction removal with
  | nil => exact absurd rfl some
  | @keep item before after runs others ih =>
    by_cases last : after = []
    · rw [last] at others
      exact ⟨[item] :: runs, .drop [item] (List.cons_ne_nil _ _) others, rfl⟩
    · obtain ⟨all, whole, count⟩ := ih last
      cases all with
      | nil => simp only [List.length_nil] at count; omega
      | cons run all =>
        obtain ⟨rest, rfl, tail⟩ := whole.cons_all
        exact ⟨(item :: run) :: all, .drop (item :: run) (List.cons_ne_nil _ _) tail, count⟩
  | drop run nonempty _ ih =>
    obtain ⟨all, whole, count⟩ := ih some
    exact ⟨run :: all, .drop run nonempty whole, by rw [List.length_cons, count, List.length_cons]⟩

/-- Two removals in turn take out as many runs as both together. -/
theorem trans (first : Removal before runs middle) (second : Removal middle others after) :
    ∃ all, Removal before all after ∧ all.length = runs.length + others.length := by
  induction second generalizing before runs with
  | nil => exact ⟨runs, first, rfl⟩
  | @keep item middle after others _ ih =>
    obtain ⟨left, right, leftRuns, rightRuns, rfl, rfl, leftOk, rightOk⟩ :=
      first.split [item] middle
    obtain ⟨all, rest, count⟩ := ih rightOk
    refine ⟨leftRuns ++ all, leftOk.append rest, ?_⟩
    simp only [List.length_append, count, Nat.add_assoc]
  | @drop run middle after others nonempty _ ih =>
    obtain ⟨left, right, leftRuns, rightRuns, rfl, rfl, leftOk, rightOk⟩ := first.split run middle
    obtain ⟨all, rest, count⟩ := ih rightOk
    obtain ⟨gone, whole, more⟩ := leftOk.dropKept nonempty
    refine ⟨gone ++ all, whole.append rest, ?_⟩
    simp only [List.length_append, count, more, List.length_cons]
    omega

end Removal

def blankCodes : List Nat :=
  [9, 10, 11, 12, 13, 0x20, 0x85, 0xA0, 0x1680, 0x2000, 0x2001, 0x2002, 0x2003, 0x2004, 0x2005,
   0x2006, 0x2007, 0x2008, 0x2009, 0x200A, 0x2028, 0x2029, 0x202F, 0x205F, 0x3000]

theorem mem_blankCodes {c : Char} (blank : isBlank c = true) : c.toNat ∈ blankCodes := by
  simp only [blankCodes, List.mem_cons, List.not_mem_nil, or_false]
  simp only [isBlank] at blank
  split at blank <;>
    simp only [Bool.or_eq_true, Bool.and_eq_true, beq_iff_eq, decide_eq_true_eq] at blank <;> omega

theorem blank_induction (holds : Char → Prop) (codes : ∀ code ∈ blankCodes, holds (Char.ofNat code))
    {c : Char} (blank : isBlank c = true) : holds c := by
  have found := codes c.toNat (mem_blankCodes blank)
  rwa [Char.ofNat_toNat] at found

namespace Text

@[simp] theorem words_nil : words [] = [] := rfl

theorem words_cons_blank {c : Char} (blank : isBlank c = true) (text : List Char) :
    words (c :: text) = words text :=
  words_append_blank [] text c blank

theorem words_eq_nil {text : List Char} (blank : text.all isBlank = true) : words text = [] := by
  induction text with
  | nil => rfl
  | cons c rest ih =>
    rw [List.all_cons, Bool.and_eq_true] at blank
    rw [words_cons_blank blank.1, ih blank.2]

theorem words_cons_ne_nil {c : Char} (dark : isBlank c = false) (text : List Char) :
    words (c :: text) ≠ [] := by
  simp only [words, cut, dark, Bool.false_eq_true, ↓reduceIte]
  cases parts : cut isBlank text with
  | nil => exact absurd parts (cut_ne_nil isBlank text)
  | cons part others =>
    simp only [List.modifyHead_cons, List.filter_cons, List.isEmpty_cons, Bool.not_false,
      ↓reduceIte]
    exact List.cons_ne_nil _ _

theorem add_length_cons (offset : Nat) (c : Char) (rest : List Char) :
    offset + (c :: rest).length = offset + 1 + rest.length := by
  rw [List.length_cons, Nat.add_assoc, Nat.add_comm 1]

def Breaks (before : List Char) : Prop :=
  before = [] ∨ ∃ front c, before = front ++ [c] ∧ isBlank c = true

theorem words_append_of_breaks {before : List Char} (breaks : Breaks before) (text : List Char) :
    words (before ++ text) = words before ++ words text := by
  rcases breaks with rfl | ⟨front, c, rfl, blank⟩
  · rfl
  · rw [List.append_assoc, List.singleton_append, words_append_blank front text c blank,
      words_append_blank front [] c blank, words_nil, List.append_nil]

theorem words_of_dark {word : List Char} (nonempty : word ≠ [])
    (dark : ∀ c ∈ word, isBlank c = false) : words word = [word] := by
  have whole : cut isBlank word = [word] := by
    clear nonempty
    induction word with
    | nil => rfl
    | cons c rest ih =>
      have behind := ih (fun d member => dark d (List.mem_cons_of_mem c member))
      simp [cut, dark c List.mem_cons_self, behind]
  simp [words, whole, nonempty]

end Text

end SelectorLang
