import SelectorLang.Proofs.Matching

set_option autoImplicit false

namespace SelectorLang

namespace Scanner

def after (scanner : Scanner) (text : List Char) : Scanner := text.foldl step scanner

@[simp] theorem after_nil (scanner : Scanner) : scanner.after [] = scanner := rfl

@[simp] theorem after_cons (scanner : Scanner) (c : Char) (rest : List Char) :
    scanner.after (c :: rest) = (scanner.step c).after rest := rfl

theorem after_append (scanner : Scanner) (front back : List Char) :
    scanner.after (front ++ back) = (scanner.after front).after back :=
  List.foldl_append

end Scanner

namespace Paren

theorem scanFrom_append (scanner : Scanner) (offset : Nat) (front back : List Char) :
    scanFrom scanner offset (front ++ back) =
      scanFrom scanner offset front ++
        scanFrom (scanner.after front) (offset + front.length) back := by
  induction front generalizing scanner offset with
  | nil => rfl
  | cons c rest ih =>
    rw [List.cons_append, scanFrom, scanFrom, ih, Text.add_length_cons, Scanner.after_cons]
    split
    · rfl
    · rfl

/-- The openings on a stack that an open outermost group stands for. -/
def Tracks : Option (Nat × Nat) → List Nat → Prop
  | none, stack => stack = []
  | some (_, inner), stack => stack.length = inner + 1

/-- Behind parentheses that leave nothing open the outermost pairs are found anew. -/
theorem outermostFrom_append {current : Option (Nat × Nat)} {stack : List Nat}
    (tracks : Tracks current stack) {front : List Paren}
    (closed : (matchFrom stack front).unclosed = []) (back : List Paren) :
    outermostFrom current (front ++ back) =
      outermostFrom current front ++ outermostFrom none back := by
  induction front generalizing current stack with
  | nil =>
    cases current with
    | none => rfl
    | some state =>
      rw [matchFrom_nil] at closed
      subst closed
      cases tracks
  | cons paren rest ih =>
    obtain ⟨offset, opens⟩ := paren
    cases opens with
    | true =>
      rw [matchFrom_open] at closed
      cases current with
      | none =>
        have one : Tracks (some (offset, 0)) (offset :: stack) :=
          congrArg (· + 1) (congrArg _ tracks)
        exact ih one closed
      | some state =>
        have more : Tracks (some (state.1, state.2 + 1)) (offset :: stack) :=
          congrArg (· + 1) tracks
        exact ih more closed
    | false =>
      cases current with
      | none =>
        subst tracks
        exact ih rfl closed
      | some state =>
        obtain ⟨start, inner⟩ := state
        cases stack with
        | nil => cases tracks
        | cons first stack =>
          rw [matchFrom_close] at closed
          have size : stack.length = inner := Nat.succ.inj tracks
          cases inner with
          | zero =>
            have empty : Tracks none stack := List.eq_nil_of_length_eq_zero size
            exact congrArg (_ :: ·) (ih empty closed)
          | succ outer =>
            have fewer : Tracks (some (start, outer)) stack := size
            exact ih fewer closed

end Paren

namespace Span

/-- The spans stand between two offsets, one behind the other. -/
def Within (high : Nat) : Nat → List Span → Prop
  | _, [] => True
  | low, span :: others =>
    low ≤ span.start ∧ span.start < span.stop ∧ span.stop ≤ high ∧ Within high span.stop others

theorem Within.of_mem {high low : Nat} {spans : List Span} (within : Within high low spans)
    {span : Span} (member : span ∈ spans) :
    low ≤ span.start ∧ span.start < span.stop ∧ span.stop ≤ high := by
  induction spans generalizing low with
  | nil => cases member
  | cons first others ih =>
    obtain ⟨start, proper, stop, behind⟩ := within
    rcases List.mem_cons.mp member with rfl | later
    · exact ⟨start, proper, stop⟩
    · have bounds := ih behind later
      omega

def move (count : Nat) (span : Span) : Span := ⟨span.start + count, span.stop + count⟩

theorem slice_front {first : List Char} {span : Span} (start : span.start ≤ first.length)
    (stop : span.stop ≤ first.length) (second : List Char) :
    span.slice (first ++ second) = span.slice first := by
  have room : span.stop - span.start ≤ (first.drop span.start).length := by
    rw [List.length_drop]
    omega
  rw [slice, slice, List.drop_append_of_le_length start, List.take_append_of_le_length room]

theorem slice_move (first second : List Char) (span : Span) :
    (span.move first.length).slice (first ++ second) = span.slice second := by
  have start : span.start + first.length = first.length + span.start := Nat.add_comm _ _
  have size : span.stop + first.length - (first.length + span.start) = span.stop - span.start := by
    omega
  rw [slice, slice, move, start, size, List.drop_length_add_append]

/-- In a text with another one behind it spans are replaced in each part. -/
theorem blankOutFrom_split {low : Nat} {first : List Char} {spans : List Span}
    (within : Within (low + first.length) low spans) (second : List Char) {others : List Span}
    (behind : ∀ span ∈ others, low + first.length ≤ span.start ∧ span.start ≤ span.stop) :
    blankOutFrom low (spans ++ others) (first ++ second) =
      blankOutFrom low spans first ++ blankOutFrom (low + first.length) others second := by
  induction spans generalizing low first with
  | nil => exact blankOutFrom_append low others first second behind
  | cons span spans ih =>
    obtain ⟨start, proper, stop, later⟩ := within
    have fits : span.start - low ≤ first.length := by omega
    have room : span.stop - low ≤ first.length := by omega
    have place : span.stop + (first.drop (span.stop - low)).length = low + first.length := by
      rw [List.length_drop]
      omega
    rw [← place] at later behind
    rw [List.cons_append, blankOutFrom, blankOutFrom, List.take_append_of_le_length fits,
      List.drop_append_of_le_length room, ih later behind, place, List.append_assoc,
      List.cons_append]

theorem blankOutFrom_move (spans : List Span) (offset count : Nat) (text : List Char) :
    blankOutFrom (offset + count) (spans.map (move count)) text =
      blankOutFrom offset spans text := by
  induction spans generalizing offset text with
  | nil => rfl
  | cons span others ih =>
    have start : (span.move count).start - (offset + count) = span.start - offset :=
      Nat.add_sub_add_right _ count _
    have stop : (span.move count).stop - (offset + count) = span.stop - offset :=
      Nat.add_sub_add_right _ count _
    rw [List.map_cons, blankOutFrom, blankOutFrom, start, stop]
    exact congrArg (fun rest => _ ++ ' ' :: rest) (ih span.stop _)

end Span

namespace Paren

/-- The outermost pairs stand one behind the other, among the parentheses. -/
theorem within_outermostFrom {low high : Nat} {current : Option (Nat × Nat)} {parens : List Paren}
    (held : ∀ state ∈ current, low ≤ state.1 ∧ ∀ paren ∈ parens, state.1 < paren.offset)
    (bounds : ∀ paren ∈ parens, low ≤ paren.offset ∧ paren.offset < high)
    (ordered : parens.Pairwise (fun first second => first.offset < second.offset)) :
    Span.Within high low (outermostFrom current parens) := by
  induction parens generalizing low current with
  | nil => cases current <;> trivial
  | cons paren rest ih =>
    obtain ⟨own, others⟩ := List.forall_mem_cons.mp bounds
    obtain ⟨above, sorted⟩ := List.pairwise_cons.mp ordered
    obtain ⟨offset, opens⟩ := paren
    cases opens with
    | true =>
      cases current with
      | none =>
        refine ih ?_ others sorted
        rintro _ ⟨⟩
        exact ⟨own.1, above⟩
      | some state =>
        refine ih ?_ others sorted
        rintro _ ⟨⟩
        obtain ⟨start, before⟩ := held state rfl
        exact ⟨start, fun paren member => before paren (List.mem_cons_of_mem _ member)⟩
    | false =>
      cases current with
      | none =>
        refine ih ?_ others sorted
        rintro _ ⟨⟩
      | some state =>
        obtain ⟨start, inner⟩ := state
        obtain ⟨from_low, before⟩ := held (start, inner) rfl
        have first := before _ List.mem_cons_self
        cases inner with
        | zero =>
          refine ⟨from_low, by simp only at first ⊢; omega, own.2, ?_⟩
          refine ih (by rintro _ ⟨⟩) ?_ sorted
          intro paren member
          exact ⟨above paren member, (others paren member).2⟩
        | succ outer =>
          refine ih ?_ others sorted
          rintro _ ⟨⟩
          exact ⟨from_low, fun paren member => before paren (List.mem_cons_of_mem _ member)⟩

theorem within_outermost (text : List Char) :
    Span.Within text.length 0 (outermost (scan text)) := by
  apply within_outermostFrom
  · rintro _ ⟨⟩
  · intro paren member
    have bounds := offset_of_mem_scanFrom member
    omega
  · exact pairwise_scanFrom {} 0 text

/-- An outermost pair begins with the opening that is open already or with one of the
parentheses. -/
theorem start_of_mem_outermostFrom {current : Option (Nat × Nat)} {parens : List Paren}
    {span : Span} (member : span ∈ outermostFrom current parens) :
    (∃ state ∈ current, state.1 = span.start) ∨ ∃ paren ∈ parens, paren.offset = span.start := by
  induction parens generalizing current with
  | nil => cases current <;> cases member
  | cons paren rest ih =>
    have later : ∀ {next : Option (Nat × Nat)}, span ∈ outermostFrom next rest →
        (∀ state ∈ next, (∃ held ∈ current, held.1 = state.1) ∨ paren.offset = state.1) →
        (∃ state ∈ current, state.1 = span.start) ∨
          ∃ other ∈ paren :: rest, other.offset = span.start := by
      intro next found known
      rcases ih found with ⟨state, held, same⟩ | ⟨other, listed, same⟩
      · rcases known state held with ⟨first, open_, start⟩ | own
        · exact Or.inl ⟨first, open_, start.trans same⟩
        · exact Or.inr ⟨paren, List.mem_cons_self, own.trans same⟩
      · exact Or.inr ⟨other, List.mem_cons_of_mem paren listed, same⟩
    obtain ⟨offset, opens⟩ := paren
    cases opens with
    | true =>
      cases current with
      | none => exact later member (by rintro _ ⟨⟩; exact Or.inr rfl)
      | some state => exact later member (by rintro _ ⟨⟩; exact Or.inl ⟨state, rfl, rfl⟩)
    | false =>
      cases current with
      | none => exact later member (by rintro _ ⟨⟩)
      | some state =>
        obtain ⟨start, inner⟩ := state
        cases inner with
        | zero =>
          rcases List.mem_cons.mp member with rfl | behind
          · exact Or.inl ⟨_, rfl, rfl⟩
          · exact later behind (by rintro _ ⟨⟩)
        | succ outer => exact later member (by rintro _ ⟨⟩; exact Or.inl ⟨_, rfl, rfl⟩)

def move (count : Nat) (paren : Paren) : Paren := ⟨paren.offset + count, paren.opens⟩

theorem scanFrom_move (scanner : Scanner) (offset count : Nat) (text : List Char) :
    scanFrom scanner (offset + count) text = (scanFrom scanner offset text).map (move count) := by
  induction text generalizing scanner offset with
  | nil => rfl
  | cons c rest ih =>
    rw [scanFrom, scanFrom, Nat.add_right_comm, ih]
    split
    · rfl
    · rfl

theorem outermostFrom_move (count : Nat) (current : Option (Nat × Nat)) (parens : List Paren) :
    outermostFrom (current.map (fun state => (state.1 + count, state.2)))
      (parens.map (move count)) =
      (outermostFrom current parens).map (Span.move count) := by
  induction parens generalizing current with
  | nil => cases current <;> rfl
  | cons paren others ih =>
    obtain ⟨offset, opens⟩ := paren
    cases opens with
    | true =>
      cases current with
      | none => exact ih (some (offset, 0))
      | some state =>
        obtain ⟨start, depth⟩ := state
        exact ih (some (start, depth + 1))
    | false =>
      cases current with
      | none => exact ih none
      | some state =>
        obtain ⟨start, depth⟩ := state
        cases depth with
        | zero =>
          have stop : offset + count + 1 = offset + 1 + count := Nat.add_right_comm offset count 1
          have closed := congrArg (⟨start + count, offset + 1 + count⟩ :: ·) (ih none)
          show Span.mk (start + count) (offset + count + 1) :: _ = _
          rw [stop]
          exact closed
        | succ outer => exact ih (some (start, outer))

/-- The outermost pairs of a text that comes apart. -/
theorem outermost_scan_append {first : List Char} (fresh : ({} : Scanner).after first = {})
    (closed : (matching first).unclosed = []) (second : List Char) :
    outermost (scan (first ++ second)) =
      outermost (scan first) ++ (outermost (scan second)).map (Span.move first.length) := by
  have parts : scan (first ++ second) =
      scan first ++ (scan second).map (move first.length) := by
    rw [scan, scanFrom_append, fresh, scanFrom_move]
    rfl
  have empty : Tracks none [] := rfl
  have found := outermostFrom_append empty closed ((scan second).map (move first.length))
  rw [parts, outermost, found]
  exact congrArg _ (outermostFrom_move first.length none (scan second))

end Paren

namespace Group

def move (count : Nat) (group : Group) : Group := { group with span := group.span.move count }

theorem ofSpan_front {first : List Char} {span : Span} (proper : span.start < span.stop)
    (room : span.stop ≤ first.length) (second : List Char) :
    ofSpan (first ++ second) span = ofSpan first span := by
  have same : content (first ++ second) span = content first span := by
    apply Span.slice_front
    · show span.start + 1 ≤ first.length
      omega
    · show span.stop - 1 ≤ first.length
      omega
  rw [ofSpan, ofSpan, same]

theorem ofSpan_back (first second : List Char) {span : Span} (proper : span.start < span.stop) :
    ofSpan (first ++ second) (span.move first.length) = (ofSpan second span).move first.length := by
  have inside : (⟨(span.move first.length).start + 1, (span.move first.length).stop - 1⟩ : Span) =
      Span.move first.length ⟨span.start + 1, span.stop - 1⟩ := by
    simp only [Span.move, Span.mk.injEq]
    omega
  have same : content (first ++ second) (span.move first.length) = content second span := by
    rw [content, inside, Span.slice_move]
    rfl
  rw [ofSpan, ofSpan, same]
  rfl

end Group

/-- A text comes apart where the scanner stands as at the start and no group is open. -/
theorem split_append {first : List Char} (fresh : ({} : Scanner).after first = {})
    (closed : (Paren.matching first).unclosed = []) (second : List Char) :
    split (first ++ second) =
      ⟨(split first).groups ++ (split second).groups.map (Group.move first.length),
        (split first).remainder ++ (split second).remainder⟩ := by
  have within := Paren.within_outermost first
  have spans := Paren.outermost_scan_append fresh closed second
  simp only [split, spans, Split.mk.injEq]
  constructor
  · rw [List.map_append, List.map_map, List.map_map]
    congr 1
    · apply List.map_congr_left
      intro span member
      obtain ⟨_, proper, room⟩ := within.of_mem member
      exact Group.ofSpan_front proper room second
    · apply List.map_congr_left
      intro span member
      obtain ⟨_, proper, _⟩ := (Paren.within_outermost second).of_mem member
      exact Group.ofSpan_back first second proper
  · have behind : ∀ span ∈ (Paren.outermost (Paren.scan second)).map (Span.move first.length),
        0 + first.length ≤ span.start ∧ span.start ≤ span.stop := by
      intro span member
      obtain ⟨own, listed, rfl⟩ := List.mem_map.mp member
      have bounds := (Paren.within_outermost second).of_mem listed
      simp only [Span.move]
      omega
    rw [← Nat.zero_add first.length] at within
    have joined := Span.blankOutFrom_split within second behind
    rw [Span.blankOutFrom_move] at joined
    exact joined

/-- Text without structural parentheses behind another text belongs to what stands around the
groups. -/
theorem split_append_silent {first second : List Char}
    (silent : Paren.scanFrom (({} : Scanner).after first) first.length second = []) :
    split (first ++ second) = ⟨(split first).groups, (split first).remainder ++ second⟩ := by
  have within := Paren.within_outermost first
  have same : Paren.scan (first ++ second) = Paren.scan first := by
    rw [Paren.scan, Paren.scanFrom_append, Nat.zero_add, silent, List.append_nil]
    rfl
  simp only [split, same, Split.mk.injEq]
  constructor
  · apply List.map_congr_left
    intro span member
    obtain ⟨_, proper, room⟩ := within.of_mem member
    exact Group.ofSpan_front proper room second
  · rw [← Nat.zero_add first.length] at within
    have none : ∀ span ∈ ([] : List Span),
        0 + first.length ≤ span.start ∧ span.start ≤ span.stop :=
      fun _ member => absurd member List.not_mem_nil
    have joined := Span.blankOutFrom_split within second none
    rw [List.append_nil] at joined
    exact joined

theorem Scanner.after_ordinary {text : List Char} (ordinary : ∀ c ∈ text, isOrdinary c = true) :
    ({} : Scanner).after text = {} := by
  induction text with
  | nil => rfl
  | cons c rest ih =>
    obtain ⟨first, others⟩ := List.forall_mem_cons.mp ordinary
    rw [after_cons, step_ordinary first false, ih others]

/-- Ordinary characters in front of a text stay in front of what stands around its groups. -/
theorem split_ordinary_append {front : List Char}
    (ordinary : ∀ c ∈ front, Scanner.isOrdinary c = true) (text : List Char) :
    split (front ++ text) =
      ⟨(split text).groups.map (Group.move front.length), front ++ (split text).remainder⟩ := by
  have hidden := Scanner.hides_ordinary ordinary
  have closed : (Paren.matching front).unclosed = [] := by
    have none := hidden 0 []
    rw [List.append_nil] at none
    rw [Paren.matching, Paren.scan, none]
    rfl
  rw [split_append (Scanner.after_ordinary ordinary) closed, Scanner.split_of_hides hidden]
  rfl

end SelectorLang
