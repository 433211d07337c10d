import SelectorLang.Proofs.LeadingBlanks
import SelectorLang.Proofs.LiteralSpans
import SelectorLang.Proofs.Words

set_option autoImplicit false

namespace SelectorLang

open Reader

/-- What the reader says about the front of a text does not depend on what stands behind it. -/
def Reader.Settled {α : Type} (reader : Reader α) (front : List Char) : Prop :=
  ∃ found : Option (α × List Char), ∀ rest,
    reader (front ++ rest) = found.map (fun read => (read.1, read.2 ++ rest))

theorem Text.Breaks.behind_dark {c : Char} {text : List Char} (breaks : Breaks (c :: text))
    (dark : isBlank c = false) : text ≠ [] ∧ Breaks text := by
  refine ⟨?_, breaks.tail⟩
  rintro rfl
  rw [breaks.isBlank_of_singleton] at dark
  cases dark

namespace Reader

/-- In front of the blank that ends a text a run stops, or it goes on behind the text. -/
theorem go_breaks (closes : Char → Bool) {front : List Char} (breaks : Text.Breaks front) :
    Body closes front ∨ ∃ body more, more ≠ [] ∧ Text.Breaks more ∧
      ∀ rest, escapedRun.go closes (front ++ rest) = (body, more ++ rest) := by
  fun_induction escapedRun.go closes front with
  | case1 => exact Or.inl .nil
  | case2 c stops =>
    have unescaped : c ≠ '\\' := ne_of_accepted breaks.isBlank_of_singleton rfl
    have closing : closes c = true := by simpa [unescaped] using stops
    exact Or.inr ⟨[], [c], by simp, breaks, fun rest => go_closing unescaped closing rest⟩
  | case3 c plain =>
    rw [Bool.not_eq_true, Bool.or_eq_false_iff] at plain
    exact Or.inl (.plain c [] (beq_eq_false_iff_ne.mp plain.1) plain.2 .nil)
  | case4 c next rest backslash feed =>
    refine Or.inr ⟨[], c :: next :: rest, by simp, breaks, fun behind => ?_⟩
    simp only [List.cons_append, escapedRun.go, backslash, feed, ↓reduceIte]
  | case5 c next rest backslash other body after result ih =>
    rw [beq_iff_eq] at backslash other
    subst backslash
    rcases ih breaks.tail.tail with units | ⟨body, more, nonempty, ends, stops⟩
    · exact Or.inl (.pair next rest other units)
    · refine Or.inr ⟨'\\' :: next :: body, more, nonempty, ends, fun behind => ?_⟩
      simp only [List.cons_append, escapedRun.go, beq_self_eq_true, beq_iff_eq, other, ↓reduceIte,
        stops]
  | case6 c next rest plain closing =>
    refine Or.inr ⟨[], c :: next :: rest, by simp, breaks, fun behind => ?_⟩
    exact go_closing (by simpa using plain) closing _
  | case7 c next rest plain inside body after result ih =>
    rw [beq_iff_eq] at plain
    rw [Bool.not_eq_true] at inside
    rcases ih breaks.tail with units | ⟨body, more, nonempty, ends, stops⟩
    · exact Or.inl (.plain c _ plain inside units)
    · refine Or.inr ⟨c :: body, more, nonempty, ends, fun behind => ?_⟩
      have later := stops behind
      simp only [List.cons_append] at later ⊢
      simp only [escapedRun.go, beq_iff_eq, plain, inside, Bool.false_eq_true, ↓reduceIte, later]

theorem settled_wordEnd {front : List Char} (nonempty : front ≠ []) : Settled wordEnd front := by
  obtain ⟨c, rest, rfl⟩ := List.exists_cons_of_ne_nil nonempty
  refine ⟨if isBlank c then some ((), rest) else none, fun behind => ?_⟩
  simp only [List.cons_append, wordEnd]
  split <;> rfl

end Reader

namespace Literal

def quoteEnd : Reader Unit := do
  let folds ← flag 'i'
  if folds then pure () else let _ ← flag '>'
  wordEnd

def slashEnd : Reader Unit := do
  let _ ← flag 'i'
  wordEnd

/-- Reads a body, its closing delimiter and what is to stand behind it. -/
def delimited (closing : Char) (empty : Bool) (ending : Reader Unit) : Reader Unit := fun text =>
  let (body, rest) := escapedRun.go (· == closing) text
  if body.isEmpty && !empty then none
  else (exactly [closing] rest).bind (fun found => ending found.2)

/-- An operand begins with an operator, and what follows depends on the delimiter. -/
theorem operand_eq (operator : Char) (text : List Char) :
    operand (operator :: text) =
      if isOperator operator then
        ((quoted text).bind (fun found => quoteEnd found.2)).or
          (if operator = '~' then (slashed text).bind (fun found => slashEnd found.2) else none)
      else none := by
  by_cases sign : isOperator operator = true
  · have mark : satisfy (fun c => c == '=' || c == '~' || c == '<' || c == '>')
        (operator :: text) = some (operator, text) := satisfy_cons sign _
    rw [operand, bind_of_some _ mark, orElse_apply, if_pos sign]
    congr 1
    by_cases tilde : operator = '~'
    · simp only [tilde, beq_self_eq_true, ↓reduceIte]
      rfl
    · simp only [tilde, beq_iff_eq, ↓reduceIte]
      rfl
  · rw [operand_of_plain (by simpa using sign), if_neg sign]

theorem quoted_bind (ending : Reader Unit) (text : List Char) :
    (quoted ('"' :: text)).bind (fun found => ending found.2) =
      delimited '"' true ending text := by
  rw [quoted, bind_of_some _ (exactly_singleton '"' text)]
  simp only [delimited, escapedRun, bind_apply, Option.bind_some, Bool.not_true, Bool.and_false,
    Bool.false_eq_true, ↓reduceIte, Option.bind_assoc, pure_apply]

theorem slashed_bind (ending : Reader Unit) (text : List Char) :
    (slashed ('/' :: text)).bind (fun found => ending found.2) =
      delimited '/' false ending text := by
  rw [slashed, bind_of_some _ (exactly_singleton '/' text)]
  simp only [delimited, escapedRun1, escapedRun, bind_apply, Option.bind_some, Bool.not_false,
    Bool.and_true, Option.bind_assoc, pure_apply]
  split <;> rfl

theorem operand_quote {operator : Char} (sign : isOperator operator = true) (text : List Char) :
    operand (operator :: '"' :: text) = delimited '"' true quoteEnd text := by
  have noSlash : slashed ('"' :: text) = none := bind_of_none _ (exactly_of_mismatch rfl)
  rw [operand_eq, if_pos sign, quoted_bind, noSlash, Option.bind_none, ite_self, Option.or_none]

theorem operand_slash (text : List Char) :
    operand ('~' :: '/' :: text) = delimited '/' false slashEnd text := by
  have noQuote : quoted ('/' :: text) = none := bind_of_none _ (exactly_of_mismatch rfl)
  have sign : isOperator '~' = true := rfl
  rw [operand_eq, if_pos sign, noQuote, Option.bind_none, Option.none_or, if_pos rfl, slashed_bind]

/-- Without a delimiter behind it an operator begins no literal. -/
theorem operand_of_undelimited {operator c : Char} (unquoted : c ≠ '"')
    (unslashed : ¬(operator = '~' ∧ c = '/')) (text : List Char) :
    operand (operator :: c :: text) = none := by
  have noQuote : quoted (c :: text) = none :=
    bind_of_none _ (exactly_of_ne unquoted.symm [] text)
  rw [operand_eq, noQuote, Option.bind_none, Option.none_or]
  by_cases tilde : operator = '~'
  · have plain : c ≠ '/' := fun same => unslashed ⟨tilde, same⟩
    have noSlash : slashed (c :: text) = none :=
      bind_of_none _ (exactly_of_ne plain.symm [] text)
    rw [noSlash, Option.bind_none, ite_self, ite_self]
  · rw [if_neg tilde, ite_self]

/-- The characters of words that can be cut: they have no part in a literal. -/
def isInert (c : Char) : Bool := isBare c && c != '/' && c != '\\'

/-- The ends of operands are decided by the word that they stand in. -/
structure Decided (ending : Reader Unit) : Prop where
  settled : ∀ front, front ≠ [] → Text.Breaks front → Settled ending front
  takes : Takes ending (fun _ _ => True)

theorem takes_wordEnd : Takes wordEnd (fun _ _ => True) := by
  intro text value rest found
  cases text with
  | nil =>
    cases found
    exact ⟨[], rfl, trivial⟩
  | cons c others =>
    simp only [wordEnd] at found
    split at found
    · cases found
      exact ⟨[c], rfl, trivial⟩
    · cases found

theorem settled_flag (mark : Char) (dark : isBlank mark = false) {front : List Char}
    (nonempty : front ≠ []) (breaks : Text.Breaks front) :
    ∃ found more, more ≠ [] ∧ Text.Breaks more ∧
      ∀ rest, flag mark (front ++ rest) = some (found, more ++ rest) := by
  obtain ⟨c, others, rfl⟩ := List.exists_cons_of_ne_nil nonempty
  by_cases same : c = mark
  · subst same
    obtain ⟨some, ends⟩ := breaks.behind_dark dark
    exact ⟨true, others, some, ends, fun rest => flag_cons_self c (others ++ rest)⟩
  · exact ⟨false, c :: others, nonempty, breaks, fun rest => flag_cons_other same (others ++ rest)⟩

theorem decided_slashEnd : Decided slashEnd where
  settled := by
    intro front nonempty breaks
    obtain ⟨folds, more, some, _, flagged⟩ := settled_flag 'i' rfl nonempty breaks
    obtain ⟨found, ends⟩ := settled_wordEnd some
    exact ⟨found, fun rest => by rw [slashEnd, bind_of_some _ (flagged rest), ends]⟩
  takes := Takes.answer (takes_flag 'i') (fun _ => takes_wordEnd)

theorem decided_quoteEnd : Decided quoteEnd where
  settled := by
    intro front nonempty breaks
    obtain ⟨folds, more, some, ends, flagged⟩ := settled_flag 'i' rfl nonempty breaks
    cases folds with
    | true =>
      obtain ⟨found, settled⟩ := settled_wordEnd some
      refine ⟨found, fun rest => ?_⟩
      rw [quoteEnd, bind_of_some _ (flagged rest)]
      exact settled rest
    | false =>
      obtain ⟨closes, others, left, _, marked⟩ := settled_flag '>' rfl some ends
      obtain ⟨found, settled⟩ := settled_wordEnd left
      refine ⟨found, fun rest => ?_⟩
      rw [quoteEnd, bind_of_some _ (flagged rest)]
      simp only [Bool.false_eq_true, ↓reduceIte, bind_apply, marked, Option.bind_some]
      exact settled rest
  takes := by
    refine Takes.answer (takes_flag 'i') (fun folds => ?_)
    cases folds with
    | true => exact takes_wordEnd
    | false => exact Takes.answer (takes_flag '>') (fun _ => takes_wordEnd)

/-- A word of a text that can be cut: where it stands words begin and end. -/
structure Excision (before word after : List Char) : Prop where
  breaks : Text.Breaks before
  nonempty : word ≠ []
  inert : ∀ c ∈ word, isInert c = true
  ends : Token.endsWord after = true

/-- What a reader finds at the front of a text is settled in front of the word, or it is the same
with a space for the word and goes on behind it. -/
def Passes (reader : Reader Unit) (front word after : List Char) : Prop :=
  Settled reader front ∨ reader (front ++ (word ++ after)) = reader (front ++ ' ' :: after) ∧
    ∀ found, reader (front ++ (word ++ after)) = some found → found.2.length ≤ after.length

theorem passes_delimited {closing : Char} (known : closing = '"' ∨ closing = '/') (empty : Bool)
    {ending : Reader Unit} (decided : Decided ending) {front word after : List Char}
    (excision : Excision front word after) :
    Passes (delimited closing empty ending) front word after := by
  have dark : isBlank closing = false := by rcases known with rfl | rfl <;> rfl
  rcases go_breaks (· == closing) excision.breaks with units | ⟨body, more, some, ends, stops⟩
  · right
    have plain : Body (· == closing) word := by
      apply Body.of_all
      intro c member
      have inert := excision.inert c member
      simp only [isInert, Bool.and_eq_true, bne_iff_ne, isBare_iff] at inert
      obtain ⟨⟨⟨_, _, unquoted⟩, unslashed⟩, unescaped⟩ := inert
      rcases known with rfl | rfl
      · exact ⟨unescaped, by simpa using unquoted⟩
      · exact ⟨unescaped, by simpa using unslashed⟩
    have space : Body (· == closing) [' '] := by
      apply Body.of_all
      rcases known with rfl | rfl <;> simp
    have first := go_body_append (units.append plain) after
    have second := go_body_append (units.append space) after
    simp only [List.append_assoc, List.singleton_append] at first second
    have whole := (go_body (· == closing) after).1
    generalize escapedRun.go (· == closing) after = read at first second whole
    have filled : (front ++ (word ++ read.1)).isEmpty = false := by
      simp [excision.nonempty]
    have spaced : (front ++ ' ' :: read.1).isEmpty = false := by simp
    simp only [delimited, first, second, filled, spaced, Bool.false_and, Bool.false_eq_true,
      ↓reduceIte, true_and]
    intro found success
    obtain ⟨⟨_, rest⟩, closed, ended⟩ := Option.bind_eq_some_iff.mp success
    obtain ⟨_, parts, _⟩ := takes_exactly [closing] _ _ _ closed
    obtain ⟨_, behind, _⟩ := decided.takes rest _ _ ended
    simp only [whole, parts, behind, List.length_append]
    omega
  · left
    obtain ⟨c, others, rfl⟩ := List.exists_cons_of_ne_nil some
    by_cases same : c = closing
    · subst same
      obtain ⟨left, behind⟩ := ends.behind_dark dark
      obtain ⟨found, settled⟩ := decided.settled others left behind
      refine ⟨if body.isEmpty && !empty then none else found, fun rest => ?_⟩
      simp only [delimited, stops, List.cons_append, exactly_singleton, Option.bind_some, settled]
      split <;> rfl
    · refine ⟨none, fun rest => ?_⟩
      have failed := exactly_of_ne (Ne.symm same) [] (others ++ rest)
      simp only [delimited, stops, List.cons_append, failed, Option.bind_none, ite_self,
        Option.map_none]

/-- A literal that begins in front of the word ends there too, or goes on behind the word. -/
theorem passes_operand {c : Char} {front word after : List Char}
    (excision : Excision (c :: front) word after) : Passes operand (c :: front) word after := by
  have unread (failed : ∀ rest, operand (c :: (front ++ rest)) = none) :
      Passes operand (c :: front) word after := Or.inl ⟨none, failed⟩
  cases front with
  | nil =>
    have blank := excision.breaks.isBlank_of_singleton
    exact unread (fun rest => operand_of_blank blank rest)
  | cons d others =>
    by_cases sign : isOperator c = true
    · by_cases quote : d = '"'
      · subst quote
        have behind : Excision others word after :=
          ⟨excision.breaks.tail.tail, excision.nonempty, excision.inert, excision.ends⟩
        have passes := passes_delimited (Or.inl rfl) true decided_quoteEnd behind
        simpa only [Passes, Settled, List.cons_append, operand_quote sign] using passes
      · by_cases slash : c = '~' ∧ d = '/'
        · obtain ⟨rfl, rfl⟩ := slash
          have behind : Excision others word after :=
            ⟨excision.breaks.tail.tail, excision.nonempty, excision.inert, excision.ends⟩
          have passes := passes_delimited (Or.inr rfl) false decided_slashEnd behind
          simpa only [Passes, Settled, List.cons_append, operand_slash] using passes
        · exact unread (fun rest => operand_of_undelimited quote slash (others ++ rest))
    · exact unread (fun rest => operand_of_plain (by simpa using sign) _)

theorem Excision.tail {c : Char} {before word after : List Char}
    (excision : Excision (c :: before) word after) : Excision before word after :=
  ⟨excision.breaks.tail, excision.nonempty, excision.inert, excision.ends⟩

theorem Excision.silent {before word after : List Char} (excision : Excision before word after) :
    Silent word after := by
  have bare : ∀ c ∈ word, isBare c = true := by
    intro c member
    have inert := excision.inert c member
    simp only [isInert, Bool.and_eq_true] at inert
    exact inert.1.1
  exact silent_of_unquoted bare (stops_mark_of_endsWord rfl excision.ends)

/-- The literals in front of the word stay, and those behind it move with the text. -/
theorem spansFrom_excision {before word after : List Char}
    (excision : Excision before word after) {skip offset : Nat} (within : skip ≤ before.length)
    (outside : ∀ span ∈ spansFrom skip offset (before ++ (word ++ after)),
      span.strictlyInside (offset + before.length) = false) :
    ∃ own : List Span,
      (∀ span ∈ own, span.start ≤ span.stop ∧ span.stop ≤ offset + before.length) ∧
      spansFrom skip offset (before ++ (word ++ after)) =
        own ++ spansFrom 0 (offset + before.length + word.length) after ∧
      spansFrom skip offset (before ++ ' ' :: after) =
        own ++ spansFrom 0 (offset + before.length + 1) after := by
  induction before generalizing skip offset with
  | nil =>
    obtain rfl := Nat.le_zero.mp within
    have space : isBlank ' ' = true := rfl
    exact ⟨[], nofun, spansFrom_silent excision.silent offset, spansFrom_blank space offset after⟩
  | cons c others ih =>
    have shorter := excision.tail
    rw [Text.add_length_cons] at outside ⊢
    rw [List.cons_append] at outside ⊢
    rw [List.cons_append]
    cases skip with
    | succ skip => exact ih shorter (Nat.le_of_succ_le_succ within) outside
    | zero =>
      rw [spansFrom] at outside ⊢
      rw [spansFrom]
      rcases passes_operand excision with ⟨found, settled⟩ | ⟨same, short⟩
      · simp only [List.cons_append] at settled
        cases found with
        | none =>
          simp only [settled, Option.map_none] at outside ⊢
          exact ih shorter (Nat.zero_le _) outside
        | some read =>
          have size : ∀ rest : List Char, (others ++ rest).length - (read.2 ++ rest).length =
              others.length - read.2.length := by
            intro rest
            rw [List.length_append, List.length_append]
            omega
          simp only [settled, Option.map_some, size] at outside ⊢
          have later := fun span member => outside span (List.mem_cons_of_mem _ member)
          obtain ⟨own, bounds, first, second⟩ := ih shorter (Nat.sub_le _ _) later
          refine ⟨_ :: own, List.forall_mem_cons.mpr ⟨?_, bounds⟩, congrArg (_ :: ·) first,
            congrArg (_ :: ·) second⟩
          simp only
          omega
      · simp only [List.cons_append] at same short
        rw [same] at outside short ⊢
        cases read : operand (c :: (others ++ ' ' :: after)) with
        | none =>
          simp only [read] at outside ⊢
          exact ih shorter (Nat.zero_le _) outside
        | some found =>
          -- A literal that goes on behind the word would stand around it.
          exfalso
          have more : 0 < others.length := by
            cases others with
            | cons d others => exact Nat.succ_pos _
            | nil =>
              rw [operand_of_blank excision.breaks.isBlank_of_singleton] at read
              cases read
          have positive := List.length_pos_iff.mpr excision.nonempty
          have left := short found read
          simp only [read] at outside
          have apart := outside _ List.mem_cons_self
          simp only [Span.strictlyInside, Bool.and_eq_false_iff, decide_eq_false_iff_not,
            List.length_append] at apart
          omega

def texts (text : List Char) : List (List Char) := (spans text).map (fun span => span.slice text)

theorem spansFrom_behind (count : Nat) (text : List Char) :
    spansFrom 0 count text = (spans text).map (Span.move count) := by
  have moved := spansFrom_move 0 0 count text
  rwa [Nat.zero_add] at moved

theorem surrounds_behind {own : List Span} {count : Nat} (past : ∀ span ∈ own, span.stop ≤ count)
    (text : List Char) (place : Nat) :
    surrounds (own ++ spansFrom 0 count text) (count + place) = surrounds (spans text) place := by
  have front : surrounds own (count + place) = false := by
    rw [surrounds, List.any_eq_false]
    intro span member
    have stop := past span member
    simp only [Span.strictlyInside, Bool.and_eq_true, decide_eq_true_eq]
    omega
  rw [surrounds, List.any_append, spansFrom_behind, List.any_map]
  rw [surrounds] at front
  rw [front, Bool.false_or, surrounds]
  congr 1
  funext span
  simp only [Function.comp_apply, Span.strictlyInside, Span.move, Nat.add_comm count place,
    Nat.add_lt_add_iff_right]

theorem surrounds_front {own : List Span} {count place : Nat} (before : place ≤ count)
    (text : List Char) :
    surrounds (own ++ spansFrom 0 count text) place = surrounds own place := by
  have behind : (spansFrom 0 count text).any (fun span => span.strictlyInside place) = false := by
    rw [List.any_eq_false]
    intro span member
    have start := start_lt_of_mem member
    simp only [Span.strictlyInside, Bool.and_eq_true, decide_eq_true_eq]
    omega
  rw [surrounds, List.any_append, behind, Bool.or_false, surrounds]

/-- The slots of a text depend on the literals around its places only. -/
theorem slotsFrom_congr {literals others : List Span} {count : Nat}
    (same : ∀ place, surrounds literals (count + place) = surrounds others place) (offset : Nat)
    (text : List Char) :
    slotsFrom literals (count + offset) text = slotsFrom others offset text := by
  induction text generalizing offset with
  | nil => rfl
  | cons c rest ih =>
    have later := ih (offset + 1)
    rw [← Nat.add_assoc] at later
    simp only [slotsFrom, later, same]

theorem texts_behind {own : List Span} {front : List Char}
    (past : ∀ span ∈ own, span.start ≤ span.stop ∧ span.stop ≤ front.length) (text : List Char) :
    (own ++ spansFrom 0 front.length text).map (fun span => span.slice (front ++ text)) =
      own.map (fun span => span.slice front) ++ texts text := by
  rw [List.map_append, spansFrom_behind, List.map_map]
  congr 1
  · apply List.map_congr_left
    intro span member
    have bounds := past span member
    exact Span.slice_front (by omega) bounds.2 text
  · exact List.map_congr_left (fun span _ => Span.slice_move front text span)

section Cut

variable {before word after : List Char} (excision : Excision before word after)
  (exposed : surrounds (spans (before ++ (word ++ after))) before.length = false)

include excision exposed

/-- The literals of a text with and without the word: those in front of it, and those behind. -/
theorem spans_excision :
    ∃ own : List Span, (∀ span ∈ own, span.start ≤ span.stop ∧ span.stop ≤ before.length) ∧
      spans (before ++ (word ++ after)) = own ++ spansFrom 0 (before ++ word).length after ∧
      spans (before ++ ' ' :: after) = own ++ spansFrom 0 (before ++ [' ']).length after := by
  have outside : ∀ span ∈ spansFrom 0 0 (before ++ (word ++ after)),
      span.strictlyInside (0 + before.length) = false := by
    rw [Nat.zero_add]
    intro span member
    simpa using List.any_eq_false.mp exposed span member
  have found := spansFrom_excision excision (Nat.zero_le _) outside
  rwa [Nat.zero_add, ← List.length_append, ← List.length_singleton (a := ' '),
    ← List.length_append] at found

theorem texts_excision : texts (before ++ ' ' :: after) = texts (before ++ (word ++ after)) := by
  obtain ⟨own, bounds, full, cut⟩ := spans_excision excision exposed
  have same : ∀ more : List Char, own.map (fun span => span.slice (before ++ more)) =
      own.map (fun span => span.slice before) := by
    intro more
    apply List.map_congr_left
    intro span member
    have fits := bounds span member
    exact Span.slice_front (by omega) fits.2 more
  have past : ∀ more : List Char, ∀ span ∈ own,
      span.start ≤ span.stop ∧ span.stop ≤ (before ++ more).length := by
    intro more span member
    have fits := bounds span member
    rw [List.length_append]
    omega
  rw [texts, texts, full, cut, ← List.append_assoc, ← List.singleton_append, ← List.append_assoc,
    texts_behind (past word), texts_behind (past [' ']), same, same]

theorem surrounds_excision {place : Nat} (front : place ≤ before.length) :
    surrounds (spans (before ++ ' ' :: after)) place =
      surrounds (spans (before ++ (word ++ after))) place := by
  obtain ⟨own, _, full, cut⟩ := spans_excision excision exposed
  rw [full, cut, surrounds_front (by rw [List.length_append]; omega),
    surrounds_front (by rw [List.length_append]; omega)]

theorem slotsFrom_excision :
    slotsFrom (spans (before ++ ' ' :: after)) (before.length + 1) after =
      slotsFrom (spans (before ++ (word ++ after))) (before.length + word.length) after := by
  obtain ⟨own, bounds, full, cut⟩ := spans_excision excision exposed
  have moved : ∀ more : List Char,
      slotsFrom (own ++ spansFrom 0 (before ++ more).length after) (before ++ more).length after =
        slots after := by
    intro more
    apply slotsFrom_congr (surrounds_behind (fun span member => ?_) after) 0
    have fits := bounds span member
    rw [List.length_append]
    omega
  have first := moved [' ']
  have second := moved word
  rw [← full, List.length_append] at second
  rw [← cut, List.length_append] at first
  exact first.trans second.symm

end Cut

/-- Behind a place, the words with an answer that begin in no literal have given way to spaces. The
literals of the whole text are as before, and so is what stands around the places in front. -/
structure Leaves {α : Type} (answer : List Char → Option α) (before text left : List Char) :
    Prop where
  texts : texts (before ++ left) = texts (before ++ text)
  marks : ∀ place ≤ before.length,
    surrounds (spans (before ++ left)) place = surrounds (spans (before ++ text)) place
  slots : slotsFrom (spans (before ++ left)) before.length left =
    (slotsFrom (spans (before ++ text)) before.length text).map
      (Slot.clear (MarkedWord.answer answer))

namespace Leaves

variable {α : Type} {answer : List Char → Option α} {before word after left : List Char}

theorem nil (before : List Char) : Leaves answer before [] [] := ⟨rfl, fun _ _ => rfl, rfl⟩

theorem gap {c : Char} (blank : isBlank c = true)
    (behind : Leaves answer (before ++ [c]) after left) :
    Leaves answer before (c :: after) (c :: left) := by
  obtain ⟨literals, marks, slots⟩ := behind
  rw [List.append_assoc, List.append_assoc, List.singleton_append, List.singleton_append,
    List.length_append, List.length_singleton] at slots
  simp only [List.append_assoc, List.singleton_append, List.length_append,
    List.length_singleton] at literals marks
  refine ⟨literals, fun place front => marks place (by omega), ?_⟩
  rw [slotsFrom_gap _ blank, slotsFrom_gap _ blank, slots]
  rfl

theorem ends (leaves : Leaves answer before after left) (ends : Token.endsWord after = true) :
    Token.endsWord left = true := by
  have spelled := text_slotsFrom (spans (before ++ left)) before.length left
  rw [leaves.slots] at spelled
  cases after with
  | nil =>
    rw [← spelled]
    rfl
  | cons c rest =>
    rw [slotsFrom_gap _ ends] at spelled
    rw [← spelled]
    exact ends

section Word

variable (nonempty : word ≠ []) (dark : ∀ c ∈ word, isBlank c = false)
  (bounded : Token.endsWord after = true) (behind : Leaves answer (before ++ word) after left)

include nonempty dark bounded behind

theorem kept (unanswered : MarkedWord.answer answer
      ⟨word, surrounds (spans (before ++ (word ++ after))) before.length⟩ = none) :
    Leaves answer before (word ++ after) (word ++ left) := by
  have ends := behind.ends bounded
  obtain ⟨literals, marks, slots⟩ := behind
  simp only [List.append_assoc, List.length_append] at literals marks slots
  have mark := marks before.length (by omega)
  refine ⟨literals, fun place front => marks place (by omega), ?_⟩
  rw [slotsFrom_word _ nonempty dark bounded, slotsFrom_word _ nonempty dark ends, slots, mark,
    List.map_cons, Slot.clear, unanswered]
  rfl

theorem cut (breaks : Text.Breaks before) (inert : ∀ c ∈ word, isInert c = true)
    (answered : (MarkedWord.answer answer
      ⟨word, surrounds (spans (before ++ (word ++ after))) before.length⟩).isSome = true) :
    Leaves answer before (word ++ after) (' ' :: left) := by
  have excision : Excision before word left := ⟨breaks, nonempty, inert, behind.ends bounded⟩
  obtain ⟨literals, marks, slots⟩ := behind
  simp only [List.append_assoc, List.length_append] at literals marks slots
  have mark := marks before.length (by omega)
  have exposed : surrounds (spans (before ++ (word ++ left))) before.length = false := by
    rw [mark]
    cases masked : surrounds (spans (before ++ (word ++ after))) before.length with
    | false => rfl
    | true => simp [MarkedWord.answer, masked] at answered
  have space : isBlank ' ' = true := rfl
  refine ⟨(texts_excision excision exposed).trans literals, fun place front => ?_, ?_⟩
  · exact (surrounds_excision excision exposed front).trans (marks place (by omega))
  · rw [slotsFrom_word _ nonempty dark bounded, slotsFrom_gap _ space,
      slotsFrom_excision excision exposed, slots, List.map_cons, Slot.clear, if_pos answered]

end Word

end Leaves

variable {α : Type} {answer : List Char → Option α}

theorem exists_leaves (inert : ∀ word, (answer word).isSome = true → ∀ c ∈ word, isInert c = true)
    (before text : List Char) (breaks : Text.Breaks before ∨ Token.endsWord text = true) :
    ∃ left, Leaves answer before text left := by
  induction text using Text.word_induction generalizing before with
  | nil => exact ⟨[], .nil before⟩
  | gap c rest blank ih =>
    obtain ⟨left, behind⟩ := ih (before ++ [c]) (Or.inl (Or.inr ⟨before, c, rfl, blank⟩))
    exact ⟨c :: left, .gap blank behind⟩
  | word word after nonempty dark ends ih =>
    obtain ⟨left, behind⟩ := ih (before ++ word) (Or.inr ends)
    have begins : Text.Breaks before := by
      apply breaks.resolve_right
      obtain ⟨c, others, rfl⟩ := List.exists_cons_of_ne_nil nonempty
      have first := dark c List.mem_cons_self
      simp [Token.endsWord, first]
    cases answered : MarkedWord.answer answer
        ⟨word, surrounds (spans (before ++ (word ++ after))) before.length⟩ with
    | none => exact ⟨word ++ left, .kept nonempty dark ends behind answered⟩
    | some value =>
      have plain : (answer word).isSome = true := by
        simp only [MarkedWord.answer] at answered
        split at answered
        · cases answered
        · rw [answered]
          rfl
      have found : (MarkedWord.answer answer
          ⟨word, surrounds (spans (before ++ (word ++ after))) before.length⟩).isSome = true := by
        rw [answered]
        rfl
      exact ⟨' ' :: left, .cut nonempty dark ends behind begins (inert word plain) found⟩

end Literal

/-- A scan for words of plain characters leaves the literals of a text as they are, a space for each
open word that it takes, and everything else. -/
theorem Token.slots_rest_scan {α : Type} {reader : Reader α} {answer : List Char → Option α}
    (takes : reader.TakesWords answer)
    (inert : ∀ word, (answer word).isSome = true → ∀ c ∈ word, Literal.isInert c = true)
    (text : List Char) :
    Literal.slots (Piece.rest (scan reader text)) =
        (Literal.slots text).map (Slot.clear (MarkedWord.answer answer)) ∧
      Literal.texts (Piece.rest (scan reader text)) = Literal.texts text := by
  obtain ⟨left, literals, _, slots⟩ := Literal.exists_leaves inert [] text (Or.inl (Or.inl rfl))
  have spelled : left = Piece.rest (scan reader text) := by
    have text := Literal.text_slotsFrom (Literal.spans ([] ++ left)) 0 left
    rw [scan_slots takes, Slot.rest_pieces, ← text]
    exact congrArg _ slots
  rw [← spelled]
  exact ⟨slots, literals⟩

end SelectorLang
