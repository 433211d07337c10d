import SelectorLang.Proofs.Delimited
import SelectorLang.Proofs.Seams

set_option autoImplicit false

namespace SelectorLang

namespace Paren

theorem within_scanFrom (scanner : Scanner) (offset : Nat) (text : List Char) :
    Span.Within (offset + text.length) offset
      (outermostFrom none (scanFrom scanner offset text)) := by
  apply within_outermostFrom
  · rintro _ ⟨⟩
  · intro paren member
    have bounds := offset_of_mem_scanFrom member
    omega
  · exact pairwise_scanFrom scanner offset text

def leftFrom (scanner : Scanner) (offset : Nat) (text : List Char) : List Char :=
  Span.blankOutFrom offset (outermostFrom none (scanFrom scanner offset text)) text

theorem blankOutFrom_cons (scanner : Scanner) (offset : Nat) (c : Char) (rest : List Char) :
    Span.blankOutFrom offset (outermostFrom none (scanFrom scanner (offset + 1) rest)) (c :: rest) =
      c :: leftFrom scanner (offset + 1) rest := by
  apply Span.blankOutFrom_append offset _ [c] rest
  intro span member
  have bounds := (within_scanFrom scanner (offset + 1) rest).of_mem member
  exact ⟨bounds.1, Nat.le_of_lt bounds.2.1⟩

variable {scanner : Scanner}

theorem leftFrom_other {c : Char} (hidden : scanner.exposes = false ∨ (c ≠ '(' ∧ c ≠ ')'))
    (offset : Nat) (rest : List Char) :
    leftFrom scanner offset (c :: rest) = c :: leftFrom (scanner.step c) (offset + 1) rest := by
  rw [leftFrom, scanFrom_hidden hidden]
  exact blankOutFrom_cons (scanner.step c) offset c rest

theorem leftFrom_orphan (exposed : scanner.exposes = true) (offset : Nat) (rest : List Char) :
    leftFrom scanner offset (')' :: rest) = ')' :: leftFrom {} (offset + 1) rest := by
  rw [leftFrom, scanFrom_closing exposed]
  exact blankOutFrom_cons {} offset ')' rest

theorem leftFrom_group (exposed : scanner.exposes = true) {content : List Char}
    (inside : Enclosed {} 0 content) (offset : Nat) (after : List Char) :
    leftFrom scanner offset ('(' :: (content ++ ')' :: after)) =
      ' ' :: leftFrom {} (offset + content.length + 2) after := by
  have place : offset + 1 + content.length + 1 = offset + content.length + 2 := by omega
  have width : offset + content.length + 2 - offset = ('(' :: (content ++ [')'])).length := by
    simp only [List.length_cons, List.length_append, List.length_nil]
    omega
  have parts : '(' :: (content ++ ')' :: after) = '(' :: (content ++ [')']) ++ after := by simp
  rw [leftFrom, scanFrom_opening exposed, Layout.outermostFrom_open, inside.outermostFrom, place,
    Span.blankOutFrom, Nat.sub_self, List.take_zero, List.nil_append, width, parts, List.drop_left]
  rfl

theorem leftFrom_unclosed (exposed : scanner.exposes = true) {rest : List Char}
    (inside : Endless {} 0 rest) (offset : Nat) :
    leftFrom scanner offset ('(' :: rest) = '(' :: rest := by
  rw [leftFrom, scanFrom_opening exposed, Layout.outermostFrom_open, inside.outermostFrom,
    Span.blankOutFrom]

/-- The backslash that still has a character to take. -/
def held (scanner : Scanner) : List Char := if scanner.escaped then ['\\'] else []

theorem held_of_exposes (exposed : scanner.exposes = true) : held scanner = [] := by
  rw [Scanner.eq_of_exposes exposed]
  rfl

/-- A step takes a whole unit of a body or the backslash of one. -/
theorem held_step {closes : Char → Bool} {c : Char} {rest : List Char}
    (units : Body closes (held scanner ++ c :: rest)) :
    Body closes (held (scanner.step c) ++ rest) ∧
      ∀ left, Body closes (held (scanner.step c) ++ left) →
        Body closes (held scanner ++ c :: left) := by
  obtain ⟨region, escaped, angle⟩ := scanner
  cases escaped with
  | true =>
    have next : held (Scanner.step ⟨region, true, angle⟩ c) = [] := rfl
    rw [next]
    cases units with
    | pair _ _ taken later => exact ⟨later, fun left kept => .pair c left taken kept⟩
    | plain _ _ unescaped => exact absurd rfl unescaped
  | false =>
    by_cases backslash : c = '\\'
    · subst backslash
      exact ⟨units, fun left kept => kept⟩
    · have next : held (Scanner.step ⟨region, false, angle⟩ c) = [] := by
        simp only [held, Scanner.step, Bool.false_eq_true, ↓reduceIte, beq_iff_eq, backslash]
      rw [next]
      cases units with
      | pair => exact absurd rfl backslash
      | plain _ _ unescaped inside later =>
        exact ⟨later, fun left kept => .plain c left unescaped inside kept⟩

variable {closes : Char → Bool}

/-- Behind a group that stands in a body there is a body. -/
theorem Enclosed.body_behind {depth : Nat} {content after : List Char}
    (inside : Enclosed scanner depth content)
    (units : Body closes (held scanner ++ (content ++ ')' :: after))) : Body closes after := by
  induction inside with
  | done exposed =>
    rw [held_of_exposes exposed] at units
    exact (units.tail (by decide)).2
  | other hidden _ ih => exact ih (held_step units).1
  | opening exposed _ ih =>
    rw [held_of_exposes exposed] at units
    exact ih (units.tail (by decide)).2
  | closing exposed _ ih =>
    rw [held_of_exposes exposed] at units
    exact ih (units.tail (by decide)).2

/-- What remains of a body is a body: groups begin and end between its units. -/
theorem body_leftFrom (space : closes ' ' = false) {text : List Char}
    (spread : Spread scanner text) (units : Body closes (held scanner ++ text)) (offset : Nat) :
    Body closes (held scanner ++ leftFrom scanner offset text) := by
  induction spread generalizing offset with
  | nil => exact units
  | other hidden _ ih =>
    obtain ⟨later, kept⟩ := held_step units
    rw [leftFrom_other hidden]
    exact kept _ (ih later _)
  | @orphan scanner rest exposed _ ih =>
    obtain ⟨later, kept⟩ := held_step units
    rw [Scanner.step_exposed exposed (Or.inr rfl)] at later kept
    rw [leftFrom_orphan exposed]
    exact kept _ (ih later _)
  | @group scanner content after exposed inside _ ih =>
    rw [leftFrom_group exposed inside]
    rw [held_of_exposes exposed] at units ⊢
    have behind : Body closes (held {} ++ (content ++ ')' :: after)) := (units.tail (by decide)).2
    exact .plain ' ' _ (by decide) space (ih (inside.body_behind behind) _)
  | unclosed exposed inside =>
    rw [leftFrom_unclosed exposed inside]
    exact units

/-- Without groups all of a text remains, and with one it gets shorter. -/
theorem length_leftFrom {text : List Char} (spread : Spread scanner text) (offset : Nat) :
    (leftFrom scanner offset text).length ≤ text.length ∧
      (outermostFrom none (scanFrom scanner offset text) ≠ [] →
        (leftFrom scanner offset text).length < text.length) ∧
      (text ≠ [] → leftFrom scanner offset text ≠ []) := by
  induction spread generalizing offset with
  | nil => exact ⟨Nat.le_refl _, fun found => absurd rfl found, id⟩
  | @other scanner c rest hidden _ ih =>
    obtain ⟨size, shorter, _⟩ := ih (offset + 1)
    rw [leftFrom_other hidden, scanFrom_hidden hidden, List.length_cons, List.length_cons]
    exact ⟨by omega, fun found => Nat.succ_lt_succ (shorter found), fun _ => List.cons_ne_nil _ _⟩
  | @orphan scanner rest exposed _ ih =>
    obtain ⟨size, shorter, _⟩ := ih (offset + 1)
    rw [leftFrom_orphan exposed, scanFrom_closing exposed, List.length_cons, List.length_cons]
    exact ⟨by omega, fun found => Nat.succ_lt_succ (shorter found), fun _ => List.cons_ne_nil _ _⟩
  | @group scanner content after exposed inside _ ih =>
    obtain ⟨size, _, _⟩ := ih (offset + content.length + 2)
    rw [leftFrom_group exposed inside]
    simp only [List.length_cons, List.length_append]
    exact ⟨by omega, fun _ => by omega, fun _ => List.cons_ne_nil _ _⟩
  | @unclosed scanner rest exposed inside =>
    rw [leftFrom_unclosed exposed inside, scanFrom_opening exposed, Layout.outermostFrom_open,
      inside.outermostFrom]
    exact ⟨Nat.le_refl _, fun found => absurd rfl found, id⟩

end Paren

theorem remainder_eq_leftFrom (text : List Char) :
    (split text).remainder = Paren.leftFrom {} 0 text := rfl

theorem split_enclosed {content : List Char} (inside : Paren.Enclosed {} 0 content) :
    split ('(' :: (content ++ [')'])) =
      ⟨[⟨⟨0, content.length + 2⟩, (Combinator.takeMarker (Text.trimStart content)).1,
          (Combinator.takeMarker (Text.trimStart content)).2⟩], [' ']⟩ := by
  have spans : Paren.outermost (Paren.scan ('(' :: (content ++ [')']))) =
      [⟨0, content.length + 2⟩] := by
    rw [Paren.scan, Paren.scanFrom_opening rfl, Paren.outermost, Layout.outermostFrom_open,
      inside.outermostFrom, Nat.zero_add, Nat.add_comm 1, Nat.add_assoc]
    rfl
  have remainder : Span.blankOut (Paren.outermost (Paren.scan ('(' :: (content ++ [')']))))
      ('(' :: (content ++ [')'])) = [' '] := Paren.leftFrom_group rfl inside 0 []
  have group := Group.ofSpan_content [] content []
  rw [List.nil_append, List.length_nil, Nat.zero_add] at group
  rw [split, remainder, spans, List.map_singleton, group]

theorem Body.remainder {closes : Char → Bool} (space : closes ' ' = false) {text : List Char}
    (units : Body closes text) : Body closes (split text).remainder :=
  Paren.body_leftFrom space (Paren.spread {} text) units 0

theorem remainder_ne_nil {text : List Char} (nonempty : text ≠ []) : (split text).remainder ≠ [] :=
  (Paren.length_leftFrom (Paren.spread {} text) 0).2.2 nonempty

/-- A text is what remains around its groups just where it has none. -/
theorem remainder_eq_iff (text : List Char) :
    (split text).remainder = text ↔ (split text).groups = [] := by
  constructor
  · intro same
    by_cases none : Paren.outermost (Paren.scan text) = []
    · unfold split
      rw [none]
      rfl
    · have shorter := (Paren.length_leftFrom (Paren.spread {} text) 0).2.1 none
      rw [← remainder_eq_leftFrom, same] at shorter
      exact absurd shorter (Nat.lt_irrefl _)
  · intro none
    have spans : Paren.outermost (Paren.scan text) = [] := List.map_eq_nil_iff.mp none
    unfold split
    rw [spans]
    rfl

/-- Groups begin with a parenthesis. -/
theorem groups_of_not_mem {text : List Char} (absent : '(' ∉ text) : (split text).groups = [] := by
  have silent : ∀ {scanner : Scanner}, Paren.Spread scanner text → ∀ offset,
      Paren.outermostFrom none (Paren.scanFrom scanner offset text) = [] := by
    intro scanner spread offset
    induction spread generalizing offset with
    | nil => rfl
    | other hidden _ ih =>
      rw [Paren.scanFrom_hidden hidden]
      exact ih (fun member => absent (List.mem_cons_of_mem _ member)) _
    | orphan exposed _ ih =>
      rw [Paren.scanFrom_closing exposed]
      exact ih (fun member => absent (List.mem_cons_of_mem _ member)) _
    | group => exact absurd List.mem_cons_self absent
    | unclosed => exact absurd List.mem_cons_self absent
  exact List.map_eq_nil_iff.mpr (silent (Paren.spread {} text) 0)

end SelectorLang
