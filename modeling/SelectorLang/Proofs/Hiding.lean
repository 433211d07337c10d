import SelectorLang.Group
import SelectorLang.Text.Word
import SelectorLang.Proofs.Delimited
import SelectorLang.Proofs.Removal

set_option autoImplicit false

namespace SelectorLang.Scanner

open Paren

/-- The text holds no structural parenthesis for a scanner in the first state, and leaves it in the
second. -/
def Hides (before : Scanner) (text : List Char) (after : Scanner) : Prop :=
  ∀ offset rest,
    scanFrom before offset (text ++ rest) = scanFrom after (offset + text.length) rest

namespace Hides

variable {before middle after : Scanner}

theorem nil (scanner : Scanner) : Hides scanner [] scanner := fun _ _ => rfl

theorem append {front back : List Char} (first : Hides before front middle)
    (second : Hides middle back after) : Hides before (front ++ back) after := by
  intro offset rest
  rw [List.append_assoc, first, second, List.length_append, Nat.add_assoc]

theorem step (scanner : Scanner) (c : Char)
    (hidden : scanner.exposes = false ∨ (c ≠ '(' ∧ c ≠ ')')) :
    Hides scanner [c] (scanner.step c) := by
  intro offset rest
  have silent : (scanner.exposes && (c == '(' || c == ')')) = false := by
    rcases hidden with closed | ⟨opening, closing⟩
    · rw [closed, Bool.false_and]
    · rw [beq_eq_false_iff_ne.mpr opening, beq_eq_false_iff_ne.mpr closing, Bool.or_self,
        Bool.and_false]
  simp only [List.singleton_append, scanFrom, silent, Bool.false_eq_true, ↓reduceIte,
    List.length_singleton]

theorem cons {c : Char} {rest : List Char}
    (hidden : before.exposes = false ∨ (c ≠ '(' ∧ c ≠ ')')) (stepped : before.step c = middle)
    (others : Hides middle rest after) : Hides before (c :: rest) after := by
  rw [← stepped] at others
  exact (step before c hidden).append others

end Hides

def isOrdinary (c : Char) : Bool :=
  c != '\\' && c != '"' && c != '(' && c != ')' && c != '<' && c != '\x7b'

theorem ne_paren_of_isOrdinary {c : Char} (ordinary : isOrdinary c = true) : c ≠ '(' ∧ c ≠ ')' := by
  simp only [isOrdinary, Bool.and_eq_true, bne_iff_ne] at ordinary
  exact ⟨ordinary.1.1.1.2, ordinary.1.1.2⟩

theorem step_ordinary {c : Char} (ordinary : isOrdinary c = true) (angle : Bool) :
    step ⟨.plain, false, angle⟩ c = {} := by
  simp only [isOrdinary, Bool.and_eq_true, bne_iff_ne] at ordinary
  obtain ⟨⟨⟨⟨⟨backslash, quote⟩, _⟩, _⟩, less⟩, brace⟩ := ordinary
  simp only [step, Bool.false_eq_true, ↓reduceIte, beq_iff_eq, backslash, regionAfter, quote,
    beq_eq_false_iff_ne.mpr brace, Bool.false_and, beq_eq_false_iff_ne.mpr less]

theorem hides_ordinary {text : List Char} (ordinary : ∀ c ∈ text, isOrdinary c = true) :
    Hides {} text {} := by
  induction text with
  | nil => exact .nil {}
  | cons c rest ih =>
    have first := ordinary c List.mem_cons_self
    exact .cons (Or.inr (ne_paren_of_isOrdinary first)) (step_ordinary first false)
      (ih (fun d member => ordinary d (List.mem_cons_of_mem c member)))

/-- An ordinary character brings the scanner back from behind an angle bracket. -/
theorem Hides.ordinary {c : Char} {rest : List Char} {after : Scanner} {angle : Bool}
    (ordinary : isOrdinary c = true) (others : Hides {} rest after) :
    Hides ⟨.plain, false, angle⟩ (c :: rest) after :=
  .cons (Or.inr (ne_paren_of_isOrdinary ordinary)) (step_ordinary ordinary angle) others

/-- A class without the characters that mean something to the scanner is ordinary. -/
theorem isOrdinary_of_accepted {accepts : Char → Bool}
    (signs : ['\\', '"', '(', ')', '<', '\x7b'].any accepts = false) {c : Char}
    (accepted : accepts c = true) : isOrdinary c = true := by
  have other : ∀ d ∈ ['\\', '"', '(', ')', '<', '\x7b'], c ≠ d :=
    fun d member => Reader.ne_of_accepted accepted
      (Bool.eq_false_iff.mpr (List.any_eq_false.mp signs d member))
  simp only [List.forall_mem_cons] at other
  obtain ⟨backslash, quote, opening, closing, less, brace, _⟩ := other
  simp only [isOrdinary, Bool.and_eq_true, bne_iff_ne]
  exact ⟨⟨⟨⟨⟨backslash, quote⟩, opening⟩, closing⟩, less⟩, brace⟩

theorem isOrdinary_of_isFieldChar {c : Char} (name : isFieldChar c = true) :
    isOrdinary c = true :=
  isOrdinary_of_accepted rfl name

theorem isOrdinary_of_blank {c : Char} (blank : isBlank c = true) : isOrdinary c = true := by
  have codes : ∀ code ∈ blankCodes, isOrdinary (Char.ofNat code) = true := by decide
  exact blank_induction (fun c => isOrdinary c = true) codes blank

theorem hides_blank {c : Char} (blank : isBlank c = true) : Hides {} [c] {} := by
  apply hides_ordinary
  intro d member
  rw [List.mem_singleton.mp member]
  exact isOrdinary_of_blank blank

/-- A body is hidden where its plain characters do not lead out of the region. -/
theorem hides_body {region : Region} (inside : region ≠ .plain) {closes : Char → Bool}
    (stays : ∀ c, closes c = false → ∀ angle, regionAfter ⟨region, false, angle⟩ c = region)
    {body : List Char} (units : Body closes body) (angle : Bool) :
    ∃ last, Hides ⟨region, false, angle⟩ body ⟨region, false, last⟩ := by
  have closed : ∀ escaped angle, exposes ⟨region, escaped, angle⟩ = false := by
    intro escaped angle
    simp only [exposes, beq_eq_false_iff_ne.mpr inside, Bool.and_false]
  induction units generalizing angle with
  | nil => exact ⟨angle, .nil _⟩
  | pair c rest _ _ ih =>
    obtain ⟨last, others⟩ := ih (c == '<')
    exact ⟨last, .cons (Or.inl (closed false angle)) rfl
      (.cons (Or.inl (closed true false)) rfl others)⟩
  | plain c rest unescaped outside _ ih =>
    obtain ⟨last, others⟩ := ih (c == '<')
    refine ⟨last, .cons (Or.inl (closed false angle)) ?_ others⟩
    simp only [step, Bool.false_eq_true, ↓reduceIte, beq_iff_eq, unescaped, stays c outside angle]

theorem hides_quoted {body : List Char} (units : Body (· == '"') body) (angle : Bool)
    {rest : List Char} {after : Scanner} (others : Hides {} rest after) :
    Hides ⟨.plain, false, angle⟩ ('"' :: (body ++ '"' :: rest)) after := by
  have stays : ∀ c, (c == '"') = false →
      ∀ angle, regionAfter ⟨.quoted, false, angle⟩ c = .quoted := by
    intro c outside angle
    simp only [regionAfter, outside, Bool.false_eq_true, ↓reduceIte]
  obtain ⟨last, inside⟩ := hides_body (by decide) stays units false
  exact .cons (Or.inr (by decide)) rfl (inside.append (.cons (Or.inr (by decide)) rfl others))

/-- A reference body with its braces hides what it holds. -/
theorem hides_reference {body : List Char} (units : Body LiteralKind.curly.isDelimiter body)
    {rest : List Char} {after : Scanner} (others : Hides {} rest after) :
    Hides ⟨.plain, false, true⟩ ('\x7b' :: (body ++ '\x7d' :: rest)) after := by
  have stays : ∀ c, LiteralKind.curly.isDelimiter c = false →
      ∀ angle, regionAfter ⟨.reference 0, false, angle⟩ c = .reference 0 := by
    intro c outside angle
    simp only [LiteralKind.isDelimiter, Bool.or_eq_false_iff] at outside
    simp only [regionAfter, outside, Bool.false_eq_true, ↓reduceIte]
  obtain ⟨last, inside⟩ := hides_body (by decide) stays units false
  exact .cons (Or.inr (by decide)) rfl (inside.append (.cons (Or.inr (by decide)) rfl others))

/-- A text without structural parentheses is not divided. -/
theorem split_of_hides {text : List Char} {after : Scanner} (hides : Hides {} text after) :
    split text = ⟨[], text⟩ := by
  have silent := hides 0 []
  rw [List.append_nil] at silent
  have none : Paren.scan text = [] := silent
  rw [split, none]
  rfl

end SelectorLang.Scanner
