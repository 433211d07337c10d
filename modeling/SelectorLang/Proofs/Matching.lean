import SelectorLang.Proofs.Layout

set_option autoImplicit false

namespace SelectorLang

namespace Paren

structure Pair where
  /-- How many parentheses are open around the pair when it closes. -/
  level : Nat
  span : Span
deriving DecidableEq, Repr

structure Matching where
  /-- The pairs, in the order in which they close. -/
  pairs : List Pair
  /-- The openings that nothing closes, the last one first. -/
  unclosed : List Nat
  orphans : List Nat

/-- Matches parentheses, given the openings that are on the stack, the last one first. -/
def matchFrom : List Nat → List Paren → Matching
  | stack, [] => ⟨[], stack, []⟩
  | stack, paren :: rest =>
    if paren.opens then matchFrom (paren.offset :: stack) rest
    else match stack with
      | [] =>
        let later := matchFrom [] rest
        { later with orphans := paren.offset :: later.orphans }
      | start :: others =>
        let later := matchFrom others rest
        { later with pairs := ⟨others.length, ⟨start, paren.offset + 1⟩⟩ :: later.pairs }

/-- Matches the structural parentheses of a text. -/
def matching (text : List Char) : Matching := matchFrom [] (scan text)

namespace Matching

/-- Whether a span ends before the first opening that nothing closes. -/
def settles (result : Matching) (span : Span) : Bool :=
  result.unclosed.all (fun start => span.stop ≤ start)

/-- Whether a pair is a top-level pair, before the first opening that nothing closes, or stands in
one. -/
def belowTop (result : Matching) (pair : Pair) : Bool :=
  result.pairs.any (fun top => top.level == 0 && result.settles top.span &&
    decide (top.span.start ≤ pair.span.start) && decide (pair.span.stop ≤ top.span.stop))

/-- The pairs at and below the top-level pairs before the first opening that nothing closes. -/
def settled (result : Matching) : List Pair := result.pairs.filter result.belowTop

end Matching

@[simp] theorem matchFrom_nil (stack : List Nat) : matchFrom stack [] = ⟨[], stack, []⟩ := rfl

@[simp] theorem matchFrom_open (stack : List Nat) (offset : Nat) (rest : List Paren) :
    matchFrom stack (⟨offset, true⟩ :: rest) = matchFrom (offset :: stack) rest := rfl

@[simp] theorem matchFrom_orphan (offset : Nat) (rest : List Paren) :
    matchFrom [] (⟨offset, false⟩ :: rest) =
      { matchFrom [] rest with orphans := offset :: (matchFrom [] rest).orphans } := rfl

@[simp] theorem matchFrom_close (start : Nat) (stack : List Nat) (offset : Nat)
    (rest : List Paren) :
    matchFrom (start :: stack) (⟨offset, false⟩ :: rest) =
      { matchFrom stack rest with
        pairs := ⟨stack.length, ⟨start, offset + 1⟩⟩ :: (matchFrom stack rest).pairs } := rfl

/-- Every opening is matched or left on the stack, once. -/
theorem perm_starts (stack : List Nat) (parens : List Paren) :
    ((matchFrom stack parens).pairs.map (fun pair => pair.span.start) ++
        (matchFrom stack parens).unclosed).Perm
      (stack ++ (parens.filter Paren.opens).map Paren.offset) := by
  induction parens generalizing stack with
  | nil =>
    simp only [matchFrom_nil, List.map_nil, List.nil_append, List.filter_nil, List.append_nil,
      List.Perm.refl]
  | cons paren rest ih =>
    obtain ⟨offset, opens⟩ := paren
    cases opens with
    | true =>
      simp only [matchFrom_open, List.filter_cons_of_pos, List.map_cons]
      exact (ih (offset :: stack)).trans List.perm_middle.symm
    | false =>
      have same : (⟨offset, false⟩ :: rest : List Paren).filter Paren.opens =
          rest.filter Paren.opens := rfl
      rw [same]
      cases stack with
      | nil => exact ih []
      | cons start stack =>
        simp only [matchFrom_close, List.map_cons, List.cons_append]
        exact (ih stack).cons start

theorem offset_of_mem_scanFrom {scanner : Scanner} {offset : Nat} {text : List Char} {paren : Paren}
    (member : paren ∈ scanFrom scanner offset text) :
    offset ≤ paren.offset ∧ paren.offset < offset + text.length := by
  induction text generalizing scanner offset with
  | nil => cases member
  | cons c rest ih =>
    rw [List.length_cons]
    rw [scanFrom] at member
    split at member
    · rcases List.mem_cons.mp member with rfl | later
      · simp only
        omega
      · have bounds := ih later
        omega
    · have bounds := ih member
      omega

theorem pairwise_scanFrom (scanner : Scanner) (offset : Nat) (text : List Char) :
    (scanFrom scanner offset text).Pairwise (fun first second => first.offset < second.offset) := by
  induction text generalizing scanner offset with
  | nil => exact .nil
  | cons c rest ih =>
    rw [scanFrom]
    split
    · refine .cons ?_ (ih _ _)
      intro paren member
      have bounds := offset_of_mem_scanFrom member
      simp only
      omega
    · exact ih _ _

theorem nodup_starts (text : List Char) :
    ((matching text).pairs.map (fun pair => pair.span.start)).Nodup := by
  have openings : ((scan text).filter Paren.opens).map Paren.offset |>.Nodup := by
    rw [List.Nodup, List.pairwise_map]
    exact ((pairwise_scanFrom {} 0 text).imp Nat.ne_of_lt).filter _
  have all := (perm_starts [] (scan text)).nodup_iff.mpr openings
  exact (List.nodup_append.mp all).1

/-- A matched opening and one that is left stand on the stack or among the parentheses. -/
theorem opening_of_mem {stack : List Nat} {parens : List Paren} {start : Nat}
    (member : start ∈ (matchFrom stack parens).pairs.map (fun pair => pair.span.start) ++
      (matchFrom stack parens).unclosed) :
    start ∈ stack ∨ ∃ paren ∈ parens, paren.offset = start := by
  rcases List.mem_append.mp ((perm_starts stack parens).mem_iff.mp member) with held | opened
  · exact Or.inl held
  · obtain ⟨paren, found, same⟩ := List.mem_map.mp opened
    exact Or.inr ⟨paren, (List.mem_filter.mp found).1, same⟩

theorem stop_of_mem_pairs {stack : List Nat} {parens : List Paren} {pair : Pair}
    (member : pair ∈ (matchFrom stack parens).pairs) :
    ∃ paren ∈ parens, pair.span.stop = paren.offset + 1 := by
  induction parens generalizing stack with
  | nil => cases member
  | cons paren rest ih =>
    have later : ∀ {stack : List Nat}, pair ∈ (matchFrom stack rest).pairs →
        ∃ other ∈ paren :: rest, pair.span.stop = other.offset + 1 := by
      intro stack found
      obtain ⟨other, listed, stop⟩ := ih found
      exact ⟨other, List.mem_cons_of_mem paren listed, stop⟩
    obtain ⟨offset, opens⟩ := paren
    cases opens with
    | true => exact later member
    | false =>
      cases stack with
      | nil => exact later member
      | cons start stack =>
        rcases List.mem_cons.mp member with rfl | behind
        · exact ⟨_, List.mem_cons_self, rfl⟩
        · exact later behind

end Paren

namespace Scanner

theorem eq_of_exposes {scanner : Scanner} (exposed : scanner.exposes = true) :
    scanner = ⟨.plain, false, scanner.afterAngle⟩ := by
  obtain ⟨region, escaped, angle⟩ := scanner
  simp only [exposes, Bool.and_eq_true, Bool.not_eq_true', beq_iff_eq] at exposed
  obtain ⟨rfl, rfl⟩ := exposed
  rfl

/-- A structural parenthesis leaves the scanner as at the start of a text. -/
theorem step_exposed {scanner : Scanner} (exposed : scanner.exposes = true) {c : Char}
    (paren : c = '(' ∨ c = ')') : scanner.step c = {} := by
  rw [eq_of_exposes exposed]
  rcases paren with rfl | rfl <;> rfl

end Scanner

namespace Paren

variable {scanner : Scanner} {depth : Nat}

theorem scanFrom_hidden {c : Char} (hidden : scanner.exposes = false ∨ (c ≠ '(' ∧ c ≠ ')'))
    (offset : Nat) (rest : List Char) :
    scanFrom scanner offset (c :: rest) = scanFrom (scanner.step c) (offset + 1) rest :=
  Scanner.Hides.step scanner c hidden offset rest

theorem scanFrom_opening (exposed : scanner.exposes = true) (offset : Nat) (rest : List Char) :
    scanFrom scanner offset ('(' :: rest) = ⟨offset, true⟩ :: scanFrom {} (offset + 1) rest := by
  rw [scanFrom, Scanner.step_exposed exposed (Or.inl rfl), exposed]
  rfl

theorem scanFrom_closing (exposed : scanner.exposes = true) (offset : Nat) (rest : List Char) :
    scanFrom scanner offset (')' :: rest) = ⟨offset, false⟩ :: scanFrom {} (offset + 1) rest := by
  rw [scanFrom, Scanner.step_exposed exposed (Or.inr rfl), exposed]
  rfl

/-- What a character is to a scanner. -/
theorem structural_cases (scanner : Scanner) (c : Char) :
    (scanner.exposes = false ∨ (c ≠ '(' ∧ c ≠ ')')) ∨
      (scanner.exposes = true ∧ c = '(') ∨ (scanner.exposes = true ∧ c = ')') := by
  cases exposed : scanner.exposes with
  | false => exact Or.inl (Or.inl rfl)
  | true =>
    by_cases opening : c = '('
    · exact Or.inr (Or.inl ⟨rfl, opening⟩)
    · by_cases closing : c = ')'
      · exact Or.inr (Or.inr ⟨rfl, closing⟩)
      · exact Or.inl (Or.inr ⟨opening, closing⟩)

/-- A text closes the groups that are open in front of it, as many as the depth, and all that it
opens, and ends where a parenthesis would be structural. -/
inductive Enclosed : Scanner → Nat → List Char → Prop
  | done {scanner : Scanner} (exposed : scanner.exposes = true) : Enclosed scanner 0 []
  | other {scanner : Scanner} {depth : Nat} {c : Char} {rest : List Char}
      (hidden : scanner.exposes = false ∨ (c ≠ '(' ∧ c ≠ ')'))
      (later : Enclosed (scanner.step c) depth rest) : Enclosed scanner depth (c :: rest)
  | opening {scanner : Scanner} {depth : Nat} {rest : List Char}
      (exposed : scanner.exposes = true) (later : Enclosed {} (depth + 1) rest) :
      Enclosed scanner depth ('(' :: rest)
  | closing {scanner : Scanner} {depth : Nat} {rest : List Char}
      (exposed : scanner.exposes = true) (later : Enclosed {} depth rest) :
      Enclosed scanner (depth + 1) (')' :: rest)

/-- A text leaves a group open that is open in front of it, with as many as the depth inside it. -/
inductive Endless : Scanner → Nat → List Char → Prop
  | nil {scanner : Scanner} {depth : Nat} : Endless scanner depth []
  | other {scanner : Scanner} {depth : Nat} {c : Char} {rest : List Char}
      (hidden : scanner.exposes = false ∨ (c ≠ '(' ∧ c ≠ ')'))
      (later : Endless (scanner.step c) depth rest) : Endless scanner depth (c :: rest)
  | opening {scanner : Scanner} {depth : Nat} {rest : List Char}
      (exposed : scanner.exposes = true) (later : Endless {} (depth + 1) rest) :
      Endless scanner depth ('(' :: rest)
  | closing {scanner : Scanner} {depth : Nat} {rest : List Char}
      (exposed : scanner.exposes = true) (later : Endless {} depth rest) :
      Endless scanner (depth + 1) (')' :: rest)

theorem enclosed_or_endless (scanner : Scanner) (depth : Nat) (text : List Char) :
    (∃ content after, text = content ++ ')' :: after ∧ Enclosed scanner depth content) ∨
      Endless scanner depth text := by
  induction text generalizing scanner depth with
  | nil => exact Or.inr .nil
  | cons c rest ih =>
    rcases structural_cases scanner c with hidden | ⟨exposed, rfl⟩ | ⟨exposed, rfl⟩
    · rcases ih (scanner.step c) depth with ⟨content, after, rfl, later⟩ | later
      · exact Or.inl ⟨c :: content, after, rfl, .other hidden later⟩
      · exact Or.inr (.other hidden later)
    · rcases ih {} (depth + 1) with ⟨content, after, rfl, later⟩ | later
      · exact Or.inl ⟨'(' :: content, after, rfl, .opening exposed later⟩
      · exact Or.inr (.opening exposed later)
    · cases depth with
      | zero => exact Or.inl ⟨[], rest, rfl, .done exposed⟩
      | succ depth =>
        rcases ih {} depth with ⟨content, after, rfl, later⟩ | later
        · exact Or.inl ⟨')' :: content, after, rfl, .closing exposed later⟩
        · exact Or.inr (.closing exposed later)

/-- A text outside all groups: characters that mean nothing, closings without partner, groups that
close, and at most one group at its end that does not. -/
inductive Spread : Scanner → List Char → Prop
  | nil {scanner : Scanner} : Spread scanner []
  | other {scanner : Scanner} {c : Char} {rest : List Char}
      (hidden : scanner.exposes = false ∨ (c ≠ '(' ∧ c ≠ ')'))
      (later : Spread (scanner.step c) rest) : Spread scanner (c :: rest)
  | orphan {scanner : Scanner} {rest : List Char} (exposed : scanner.exposes = true)
      (later : Spread {} rest) : Spread scanner (')' :: rest)
  | group {scanner : Scanner} {content after : List Char} (exposed : scanner.exposes = true)
      (inside : Enclosed {} 0 content) (later : Spread {} after) :
      Spread scanner ('(' :: (content ++ ')' :: after))
  | unclosed {scanner : Scanner} {rest : List Char} (exposed : scanner.exposes = true)
      (inside : Endless {} 0 rest) : Spread scanner ('(' :: rest)

/-- Every text is spread out. -/
theorem spread (scanner : Scanner) (text : List Char) : Spread scanner text := by
  -- A group is passed over whole, so the rest of the text is shorter by more than one character.
  induction size : text.length using Nat.strongRecOn generalizing scanner text with
  | ind length ih =>
    cases text with
    | nil => exact .nil
    | cons c rest =>
      rw [List.length_cons] at size
      rcases structural_cases scanner c with hidden | ⟨exposed, rfl⟩ | ⟨exposed, rfl⟩
      · exact .other hidden (ih rest.length (by omega) _ rest rfl)
      · rcases enclosed_or_endless {} 0 rest with ⟨content, after, rfl, inside⟩ | inside
        · rw [List.length_append, List.length_cons] at size
          exact .group exposed inside (ih after.length (by omega) _ after rfl)
        · exact .unclosed exposed inside
      · exact .orphan exposed (ih rest.length (by omega) _ rest rfl)

def Pair.raise (around : Nat) (pair : Pair) : Pair := { pair with level := pair.level + around }

theorem Enclosed.outermostFrom {content : List Char} (inside : Enclosed scanner depth content)
    (start offset : Nat) (after : List Char) :
    outermostFrom (some (start, depth)) (scanFrom scanner offset (content ++ ')' :: after)) =
      ⟨start, offset + content.length + 1⟩ ::
        outermostFrom none (scanFrom {} (offset + content.length + 1) after) := by
  induction inside generalizing offset with
  | done exposed =>
    rw [List.nil_append, scanFrom_closing exposed]
    rfl
  | other hidden _ ih =>
    rw [List.cons_append, scanFrom_hidden hidden, ih, List.length_cons]
    congr 3 <;> omega
  | opening exposed _ ih =>
    rw [List.cons_append, scanFrom_opening exposed, Layout.outermostFrom_inner, ih,
      List.length_cons]
    congr 3 <;> omega
  | closing exposed _ ih =>
    rw [List.cons_append, scanFrom_closing exposed, Layout.outermostFrom_outer, ih,
      List.length_cons]
    congr 3 <;> omega

theorem Endless.outermostFrom {text : List Char} (inside : Endless scanner depth text)
    (start offset : Nat) :
    outermostFrom (some (start, depth)) (scanFrom scanner offset text) = [] := by
  induction inside generalizing offset with
  | nil => rfl
  | other hidden _ ih => rw [scanFrom_hidden hidden, ih]
  | opening exposed _ ih => rw [scanFrom_opening exposed, Layout.outermostFrom_inner, ih]
  | closing exposed _ ih => rw [scanFrom_closing exposed, Layout.outermostFrom_outer, ih]

/-- Characters that mean nothing to the scanner may be left out in front. -/
theorem Enclosed.of_ordinary {lead content : List Char}
    (ordinary : ∀ c ∈ lead, Scanner.isOrdinary c = true)
    (inside : Enclosed {} depth (lead ++ content)) : Enclosed {} depth content := by
  induction lead with
  | nil => exact inside
  | cons c rest ih =>
    have first := ordinary c List.mem_cons_self
    apply ih (fun d member => ordinary d (List.mem_cons_of_mem c member))
    rw [List.cons_append] at inside
    cases inside with
    | other hidden later => rwa [Scanner.step_ordinary first false] at later
    | opening exposed later => cases first
    | closing exposed later => cases first

/-- On its own an enclosed text leaves nothing open and closes nothing else. -/
theorem Enclosed.balanced {content : List Char} (inside : Enclosed scanner depth content)
    {stack : List Nat} (size : stack.length = depth) (offset : Nat) :
    (matchFrom stack (scanFrom scanner offset content)).unclosed = [] ∧
      (matchFrom stack (scanFrom scanner offset content)).orphans = [] := by
  induction inside generalizing stack offset with
  | done _ =>
    rw [List.length_eq_zero_iff.mp size]
    exact ⟨rfl, rfl⟩
  | other hidden _ ih =>
    rw [scanFrom_hidden hidden]
    exact ih size (offset + 1)
  | opening exposed _ ih =>
    rw [scanFrom_opening exposed, matchFrom_open]
    exact ih (by rw [List.length_cons, size]) (offset + 1)
  | closing exposed _ ih =>
    cases stack with
    | nil => cases size
    | cons start stack =>
      rw [scanFrom_closing exposed, matchFrom_close]
      exact ih (Nat.succ.inj size) (offset + 1)

/-- With a group open around it an enclosed text has its own pairs, and then the group closes. -/
theorem Enclosed.matchFrom {content : List Char} (inside : Enclosed scanner depth content)
    (inner : List Nat) (size : inner.length = depth) (start : Nat) (stack : List Nat) (offset : Nat)
    (after : List Char) :
    matchFrom (inner ++ start :: stack) (scanFrom scanner offset (content ++ ')' :: after)) =
      { matchFrom stack (scanFrom {} (offset + content.length + 1) after) with
        pairs :=
          (matchFrom inner (scanFrom scanner offset content)).pairs.map
              (Pair.raise (stack.length + 1)) ++
            ⟨stack.length, ⟨start, offset + content.length + 1⟩⟩ ::
              (matchFrom stack (scanFrom {} (offset + content.length + 1) after)).pairs } := by
  induction inside generalizing inner offset with
  | done exposed =>
    rw [List.length_eq_zero_iff.mp size, List.nil_append, List.nil_append, scanFrom_closing exposed,
      matchFrom_close]
    rfl
  | @other scanner depth c rest hidden _ ih =>
    have shift : offset + (c :: rest).length + 1 = offset + 1 + rest.length + 1 := by
      rw [List.length_cons]
      omega
    rw [List.cons_append, scanFrom_hidden hidden, scanFrom_hidden hidden, ih inner size, shift]
  | @opening scanner depth rest exposed _ ih =>
    have shift : offset + ('(' :: rest).length + 1 = offset + 1 + rest.length + 1 := by
      rw [List.length_cons]
      omega
    have later := ih (offset :: inner) (by rw [List.length_cons, size]) (offset + 1)
    rw [List.cons_append, scanFrom_opening exposed, scanFrom_opening exposed, matchFrom_open,
      matchFrom_open, shift]
    exact later
  | @closing scanner depth rest exposed _ ih =>
    have shift : offset + (')' :: rest).length + 1 = offset + 1 + rest.length + 1 := by
      rw [List.length_cons]
      omega
    cases inner with
    | nil => cases size
    | cons first inner =>
      have level : (inner ++ start :: stack).length = inner.length + (stack.length + 1) := by
        rw [List.length_append, List.length_cons]
      rw [List.cons_append, List.cons_append, scanFrom_closing exposed, scanFrom_closing exposed,
        matchFrom_close, matchFrom_close, ih inner (Nat.succ.inj size), shift, level]
      rfl

def Matching.precede (later : Matching) (inner : List Pair) (group : Span) : Matching :=
  { later with pairs := inner.map (Pair.raise 1) ++ ⟨0, group⟩ :: later.pairs }

/-- A group outside all others: its own pairs, the pair of the group and what follows. -/
theorem Enclosed.matchFrom_top {content : List Char} (inside : Enclosed {} 0 content) (offset : Nat)
    (after : List Char) :
    Paren.matchFrom [offset] (scanFrom {} (offset + 1) (content ++ ')' :: after)) =
      (Paren.matchFrom [] (scanFrom {} (offset + content.length + 2) after)).precede
        (Paren.matchFrom [] (scanFrom {} (offset + 1) content)).pairs
        ⟨offset, offset + content.length + 2⟩ := by
  have found := inside.matchFrom [] rfl offset [] (offset + 1) after
  have stop : offset + 1 + content.length + 1 = offset + content.length + 2 := by omega
  rwa [List.nil_append, List.length_nil, Nat.zero_add, stop] at found

/-- A group that never closes stays on the stack, around all pairs behind it. -/
theorem Endless.matchFrom {text : List Char} (inside : Endless scanner depth text)
    (inner : List Nat) (size : inner.length = depth) (stack : List Nat) (offset : Nat) :
    stack <:+ (matchFrom (inner ++ stack) (scanFrom scanner offset text)).unclosed ∧
      ∀ pair ∈ (matchFrom (inner ++ stack) (scanFrom scanner offset text)).pairs,
        stack.length ≤ pair.level := by
  induction inside generalizing inner offset with
  | nil => exact ⟨List.suffix_append inner stack, nofun⟩
  | other hidden _ ih =>
    rw [scanFrom_hidden hidden]
    exact ih inner size (offset + 1)
  | opening exposed _ ih =>
    rw [scanFrom_opening exposed]
    exact ih (offset :: inner) (by rw [List.length_cons, size]) (offset + 1)
  | closing exposed _ ih =>
    cases inner with
    | nil => cases size
    | cons start inner =>
      obtain ⟨left, around⟩ := ih inner (Nat.succ.inj size) (offset + 1)
      rw [scanFrom_closing exposed, List.cons_append, matchFrom_close]
      refine ⟨left, ?_⟩
      intro pair member
      rcases List.mem_cons.mp member with rfl | later
      · show stack.length ≤ (inner ++ stack).length
        rw [List.length_append]
        omega
      · exact around pair later

theorem Endless.settled {text : List Char} (inside : Endless {} 0 text) (offset : Nat) :
    (Paren.matchFrom [offset] (scanFrom {} (offset + 1) text)).settled = [] := by
  have around := (inside.matchFrom [] rfl [offset] (offset + 1)).2
  rw [Matching.settled, List.filter_eq_nil_iff]
  intro pair _ below
  obtain ⟨top, member, facts⟩ := List.any_eq_true.mp below
  have level := around top member
  simp only [Bool.and_eq_true, beq_iff_eq, List.length_singleton] at facts level
  omega

/-- A group that ends before everything that stays open is settled with the pairs in it, and of the
pairs behind it those are that were without it. -/
theorem Matching.settled_precede {later : Matching} {inner : List Pair} {group : Span}
    (settles : later.settles group = true)
    (within : ∀ pair ∈ inner, group.start ≤ pair.span.start ∧ pair.span.stop ≤ group.stop)
    (behind : ∀ pair ∈ later.pairs, group.stop < pair.span.stop) :
    (later.precede inner group).settled =
      inner.map (Pair.raise 1) ++ ⟨0, group⟩ :: later.settled := by
  have covered : ∀ pair : Pair, group.start ≤ pair.span.start → pair.span.stop ≤ group.stop →
      (later.precede inner group).belowTop pair = true := by
    intro pair start stop
    refine List.any_eq_true.mpr ⟨⟨0, group⟩, List.mem_append_right _ List.mem_cons_self, ?_⟩
    simp only [beq_self_eq_true, Bool.true_and, Bool.and_eq_true, decide_eq_true_eq]
    exact ⟨⟨settles, start⟩, stop⟩
  have apart : ∀ pair ∈ later.pairs,
      (later.precede inner group).belowTop pair = later.belowTop pair := by
    intro pair member
    have outside : decide (pair.span.stop ≤ group.stop) = false :=
      decide_eq_false (Nat.not_le.mpr (behind pair member))
    have none : (inner.map (Pair.raise 1)).any (fun top => top.level == 0 &&
        later.settles top.span && decide (top.span.start ≤ pair.span.start) &&
          decide (pair.span.stop ≤ top.span.stop)) = false := by
      rw [List.any_eq_false]
      intro top listed
      obtain ⟨pair, _, rfl⟩ := List.mem_map.mp listed
      exact Bool.false_ne_true
    rw [belowTop, precede, List.any_append, List.any_cons, outside, Bool.and_false, Bool.false_or]
    exact (congrArg (· || _) none).trans (Bool.false_or _)
  have self := covered ⟨0, group⟩ (Nat.le_refl _) (Nat.le_refl _)
  have all : ∀ pair ∈ inner.map (Pair.raise 1),
      (later.precede inner group).belowTop pair = true := by
    intro pair member
    obtain ⟨pair, listed, rfl⟩ := List.mem_map.mp member
    exact covered _ (within pair listed).1 (within pair listed).2
  have pairs : (later.precede inner group).pairs =
      inner.map (Pair.raise 1) ++ ⟨0, group⟩ :: later.pairs := rfl
  rw [settled, pairs, List.filter_append, List.filter_eq_self.mpr all,
    List.filter_cons_of_pos self, List.filter_congr apart, settled]

theorem Enclosed.settled {content : List Char} (inside : Enclosed {} 0 content) (offset : Nat)
    (after : List Char) :
    (Paren.matchFrom [offset] (scanFrom {} (offset + 1) (content ++ ')' :: after))).settled =
      (Paren.matchFrom [] (scanFrom {} (offset + 1) content)).pairs.map (Pair.raise 1) ++
        ⟨0, ⟨offset, offset + content.length + 2⟩⟩ ::
          (Paren.matchFrom [] (scanFrom {} (offset + content.length + 2) after)).settled := by
  rw [inside.matchFrom_top offset after]
  apply Matching.settled_precede
  · rw [Matching.settles, List.all_eq_true]
    intro start member
    rcases opening_of_mem (List.mem_append_right _ member) with held | ⟨paren, listed, rfl⟩
    · cases held
    · exact decide_eq_true (offset_of_mem_scanFrom listed).1
  · intro pair member
    obtain ⟨paren, listed, last⟩ := stop_of_mem_pairs member
    have bounds := offset_of_mem_scanFrom listed
    rcases opening_of_mem (List.mem_append_left _ (List.mem_map_of_mem member)) with
      held | ⟨first, opened, start⟩
    · cases held
    · have above := offset_of_mem_scanFrom opened
      simp only
      omega
  · intro pair member
    obtain ⟨paren, listed, last⟩ := stop_of_mem_pairs member
    have bounds := offset_of_mem_scanFrom listed
    simp only
    omega

/-- Where nothing stays open every pair is settled. -/
theorem Spread.settled_of_closed {text : List Char} (spread : Spread scanner text) (offset : Nat)
    (closed : (Paren.matchFrom [] (scanFrom scanner offset text)).unclosed = []) :
    (Paren.matchFrom [] (scanFrom scanner offset text)).settled =
      (Paren.matchFrom [] (scanFrom scanner offset text)).pairs := by
  induction spread generalizing offset with
  | nil => rfl
  | other hidden _ ih =>
    rw [scanFrom_hidden hidden] at closed ⊢
    exact ih (offset + 1) closed
  | orphan exposed _ ih =>
    rw [scanFrom_closing exposed, matchFrom_orphan] at closed ⊢
    exact ih (offset + 1) closed
  | @group scanner content after exposed inside _ ih =>
    have found := inside.matchFrom_top offset after
    rw [scanFrom_opening exposed, matchFrom_open] at closed ⊢
    rw [found] at closed
    rw [inside.settled, ih _ closed, found]
    rfl
  | unclosed exposed inside =>
    have held := (inside.matchFrom [] rfl [offset] (offset + 1)).1
    rw [scanFrom_opening exposed, matchFrom_open] at closed
    rw [List.nil_append, closed] at held
    cases List.suffix_nil.mp held

end Paren

end SelectorLang
