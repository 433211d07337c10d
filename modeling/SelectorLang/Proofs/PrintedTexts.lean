import SelectorLang.Directive
import SelectorLang.Proofs.PlainWords

set_option autoImplicit false

namespace SelectorLang

open Token

/-- The phrases that the passes from a number on take, in their order. -/
def inPasses (phrases : List Phrase) : Nat → Nat → List Phrase
  | _, 0 => []
  | place, count + 1 =>
    phrases.filter (fun phrase => phrase.place == place) ++ inPasses phrases (place + 1) count

theorem inPasses_filter (phrases : List Phrase) {place first : Nat} (before : place < first)
    (count : Nat) :
    inPasses (phrases.filter (fun phrase => phrase.place != place)) first count =
      inPasses phrases first count := by
  induction count generalizing first with
  | zero => rfl
  | succ count ih =>
    have same : (phrases.filter (fun phrase => phrase.place != place)).filter
        (fun phrase => phrase.place == first) =
          phrases.filter (fun phrase => phrase.place == first) := by
      rw [List.filter_filter]
      apply List.filter_congr
      intro phrase _
      by_cases own : phrase.place = first
      · have other : phrase.place ≠ place := by omega
        simp only [own, beq_self_eq_true, Bool.true_and, bne_iff_ne, ne_eq]
        omega
      · simp only [beq_eq_false_iff_ne.mpr own, Bool.false_and]
    rw [inPasses, inPasses, same, ih (by omega)]

/-- Items are spelled as printed clauses or as plain words. -/
structure Spelled {ω : Type} (spell : ω → List Char) (phrase? : ω → Option Phrase) : Prop where
  printed : ∀ item phrase, phrase? item = some phrase → spell item = phrase.text
  plain : ∀ item, phrase? item = none → ∃ word : PlainWord, spell item = word.chars

theorem Phrase.spelled : Spelled Phrase.text some where
  printed := by
    intro phrase other same
    rw [Option.some.inj same]
  plain := fun phrase none => absurd none (Option.some_ne_none phrase)

section

variable {ω : Type} {spell : ω → List Char} {phrase? : ω → Option Phrase}

theorem Spelled.forall_text (spelled : Spelled spell phrase?) (holds : List Char → Prop)
    (phrases : ∀ phrase : Phrase, holds phrase.text) (words : ∀ word : PlainWord, holds word.chars)
    (item : ω) : holds (spell item) := by
  cases found : phrase? item with
  | some phrase =>
    rw [spelled.printed item phrase found]
    exact phrases phrase
  | none =>
    obtain ⟨word, same⟩ := spelled.plain item found
    rw [same]
    exact words word

theorem Spelled.solid (spelled : Spelled spell phrase?) (item : ω) : Solid (spell item) :=
  spelled.forall_text Solid Phrase.solid PlainWord.solid item

theorem Spelled.hides (spelled : Spelled spell phrase?) (item : ω) :
    Scanner.Hides {} (spell item) {} :=
  spelled.forall_text (fun text => Scanner.Hides {} text {}) Phrase.hides PlainWord.hides item

end

namespace Slot

def printed (slots : List (Slot Phrase)) : List Char := text Phrase.text slots

/-- A scan for what no word is leaves the text as it is. -/
theorem scan_refused {α ω : Type} {spell : ω → List Char} {slots : List (Slot ω)}
    (reader : Reader α) (dark : reader.Dark) (apart : Apart slots)
    (solid : ∀ item, Solid (spell item)) (refuses : ∀ item, Refuses reader (spell item)) :
    Piece.rest (scan reader (text spell slots)) = text spell slots ∧
      Piece.values (scan reader (text spell slots)) = [] := by
  have scanned : scan reader (text spell slots) = pieces spell (fun _ => none) slots :=
    scan_text dark apart (fun item _ => solid item) (fun _ _ _ => nofun)
      (fun item _ _ => refuses item)
  have same : slots.map (clear (fun _ => (none : Option α))) = slots := by
    have each : clear (fun _ : ω => (none : Option α)) = id := by
      funext slot
      cases slot <;> rfl
    rw [each, List.map_id]
  refine ⟨?_, ?_⟩
  · rw [scanned, rest_pieces, same]
  · rw [scanned, Piece.values_eq_map_tokens, tokens_pieces]
    simp only [Option.map_none]
    induction words slots with
    | nil => rfl
    | cons item items ih => exact ih

end Slot

namespace Directive

open Reader

/-- A name with a colon stands at the front of no text in which another character ends the first
name. -/
theorem exactly_colon {word : List Char} (letters : ∀ c ∈ word, isFieldChar c = true)
    {chars : List Char} (names : ∀ c ∈ chars, isFieldChar c = true) {c : Char}
    (outside : isFieldChar c = false) (other : (c == ':') = false) (rest : List Char) :
    exactly (word ++ [':']) (chars ++ c :: rest) = none := by
  apply exactly_of_mismatch
  induction chars generalizing word with
  | nil =>
    cases word with
    | nil =>
      have differs : (':' == c) = false := by rw [BEq.comm, other]
      rw [List.nil_append, List.nil_append, List.isPrefixOf_cons_cons, differs, Bool.false_and]
    | cons first others =>
      have differs : first ≠ c := ne_of_accepted (letters first List.mem_cons_self) outside
      rw [List.nil_append, List.cons_append, List.isPrefixOf_cons_cons,
        beq_eq_false_iff_ne.mpr differs, Bool.false_and]
  | cons d chars ih =>
    have later := fun e member => names e (List.mem_cons_of_mem d member)
    cases word with
    | nil =>
      have colon : d ≠ ':' := ne_of_accepted (names d List.mem_cons_self) rfl
      rw [List.nil_append, List.cons_append, List.isPrefixOf_cons_cons,
        beq_eq_false_iff_ne.mpr colon.symm, Bool.false_and]
    | cons first others =>
      have behind := ih (fun e member => letters e (List.mem_cons_of_mem first member)) later
      rw [List.cons_append, List.cons_append, List.isPrefixOf_cons_cons, behind, Bool.and_false]

theorem unread_behind (field : FieldName) (negated : Bool) {α : Type} {word : List Char}
    (wellFormed : word.all isFieldChar = true) (next : Unit → Reader α) {c : Char}
    (outside : isFieldChar c = false) (other : (c == ':') = false) (rest : List Char) :
    (exactly (word ++ [':']) >>= next) (field.chars ++ Clause.mark negated ++ c :: rest) =
      none := by
  apply bind_of_none
  have letters : ∀ d ∈ word, isFieldChar d = true := List.all_eq_true.mp wellFormed
  have names := fun d => Phrase.isFieldChar_of_mem field (c := d)
  cases negated with
  | false =>
    rw [Clause.mark_false, List.append_nil]
    exact exactly_colon letters names outside other rest
  | true =>
    rw [Clause.mark_true, List.append_assoc, List.singleton_append]
    exact exactly_colon letters names rfl rfl (c :: rest)

theorem unread_below (field : FieldName) {α : Type} (word : List Char)
    (wellFormed : word.all isFieldChar = true) (next : Unit → Reader α) (rest : List Char) :
    (exactly (word ++ [':']) >>= next) (field.chars ++ '<' :: rest) = none := by
  have unread := unread_behind field false wellFormed next (c := '<') rfl rfl rest
  rwa [Clause.mark_false, List.append_nil] at unread

/-- What begins with a name and a colon is no printed clause. -/
theorem refuses_colon {α : Type} (word : List Char) (wellFormed : word.all isFieldChar = true)
    (next : Unit → Reader α) (phrase : Phrase) :
    Refuses (exactly (word ++ [':']) >>= next) phrase.text := by
  intro after _
  obtain ⟨negated, form⟩ := phrase
  have letters : ∀ c ∈ word, isFieldChar c = true := List.all_eq_true.mp wellFormed
  have bracket : ∀ c rest, isFieldChar c = false → (c == ':') = false →
      (exactly (word ++ [':']) >>= next) (c :: rest) = none := by
    intro c rest outside other
    have nameless : ∀ d ∈ ([] : List Char), isFieldChar d = true := nofun
    exact bind_of_none _ (exactly_colon letters nameless outside other rest)
  cases form with
  | onField field operand =>
    obtain ⟨rest, text⟩ := Clause.text_eq_cons operand
    have sign : isFieldChar (Clause.operator operand) = false ∧
        (Clause.operator operand == ':') = false := by
      cases operand <;> exact ⟨rfl, rfl⟩
    have unread := unread_behind field negated wellFormed next sign.1 sign.2 (rest ++ after)
    simpa only [Phrase.text, text, List.append_assoc, List.cons_append] using unread
  | guid identifier => exact bracket _ _ rfl rfl
  | truthy field => exact bracket _ _ rfl rfl
  | tag name => exact bracket _ _ rfl rfl

theorem dark_limit : limit.Dark := (dark_exactly rfl).bind _

theorem dark_offset : offset.Dark := (dark_exactly rfl).bind _

theorem dark_sort : sort.Dark := (dark_exactly rfl).bind _

theorem dark_reverse : reverse.Dark := (dark_exactly rfl).bind _

/-- There are no directives among printed clauses and plain words. -/
theorem extract_spelled {ω : Type} {spell : ω → List Char} {phrase? : ω → Option Phrase}
    (spelled : Spelled spell phrase?) {slots : List (Slot ω)} (apart : Slot.Apart slots)
    (className : String) :
    extract (Slot.text spell slots) { className := className } =
      (Slot.text spell slots, { className := className }) := by
  have refused : ∀ {α : Type} (word : List Char), word.all isFieldChar = true →
      ∀ (next : Unit → Reader α) (item : ω),
        Refuses (exactly (word ++ [':']) >>= next) (spell item) :=
    fun word wellFormed next => spelled.forall_text (Refuses (exactly (word ++ [':']) >>= next))
      (refuses_colon word wellFormed next) (fun plain => plain.refuses_colon word wellFormed next)
  have limits := Slot.scan_refused limit dark_limit apart spelled.solid
    (refused ['l', 'i', 'm', 'i', 't'] rfl _)
  have offsets := Slot.scan_refused offset dark_offset apart spelled.solid
    (refused ['o', 'f', 'f', 's', 'e', 't'] rfl _)
  have sorts := Slot.scan_refused sort dark_sort apart spelled.solid
    (refused ['s', 'o', 'r', 't'] rfl _)
  have reversals := Slot.scan_refused reverse dark_reverse apart spelled.solid
    (refused ['r', 'e', 'v', 'e', 'r', 's', 'e'] rfl _)
  simp only [extract, limits, offsets, sorts, reversals]
  rfl

theorem extract_printed {slots : List (Slot Phrase)} (apart : Slot.Apart slots)
    (className : String) :
    extract (Slot.printed slots) { className := className } =
      (Slot.printed slots, { className := className }) :=
  extract_spelled Phrase.spelled apart className

end Directive

namespace Stage

open Clause

variable {embed : List Char → List Char → Option Query}

variable {ω : Type} {spell : ω → List Char} {phrase? : ω → Option Phrase}

def answerAt (phrase? : ω → Option Phrase) (place : Nat) (item : ω) : Option (Option Clause) :=
  ((phrase? item).filter (fun phrase => phrase.place == place)).map
    (fun phrase => some phrase.clause)

theorem filterMap_isNone_answerAt (phrase? : ω → Option Phrase) (place : Nat) (items : List ω) :
    (items.filter (fun item => (answerAt phrase? place item).isNone)).filterMap phrase? =
      (items.filterMap phrase?).filter (fun phrase => phrase.place != place) := by
  rw [List.filterMap_filter, List.filter_filterMap]
  congr 1
  funext item
  cases found : phrase? item with
  | none => simp [answerAt, found]
  | some phrase =>
    simp only [answerAt, found, Option.filter_some, bne]
    cases phrase.place == place <;> rfl

/-- What a pass answers for items are the clauses of its phrases. -/
theorem filterMap_answerAt (place : Nat) (items : List ω) :
    items.filterMap (fun item => (answerAt phrase? place item).join) =
      ((items.filterMap phrase?).filter (fun phrase => phrase.place == place)).map
        Phrase.clause := by
  rw [List.filter_filterMap, List.map_filterMap]
  congr 1
  funext item
  cases found : phrase? item with
  | none => simp [answerAt, found]
  | some phrase =>
    simp only [answerAt, found, Option.filter_some]
    cases phrase.place == place <;> rfl

/-- What one pass does to a text whose phrases no earlier pass takes. -/
theorem pass_spelled (spelled : Spelled spell phrase?) {pass : Pass} {place : Nat}
    (listed : pass ∈ placed (all embed)) (own : (readers embed)[place]? = some pass.reader)
    {slots : List (Slot ω)} (apart : Slot.Apart slots)
    (within : ∀ phrase ∈ (Slot.words slots).filterMap phrase?, place ≤ phrase.place) :
    pass.rest (Slot.text spell slots) =
        Slot.text spell (slots.map (Slot.clear (answerAt phrase? place))) ∧
      (pass.claims (Slot.text spell slots)).filterMap Claim.clause =
        (((Slot.words slots).filterMap phrase?).filter
          (fun phrase => phrase.place == place)).map Phrase.clause := by
  have scanned : scan pass.reader (Slot.text spell slots) =
      Slot.pieces spell (answerAt phrase? place) slots := by
    refine Slot.scan_text (dark_of_mem listed) apart (fun item _ => spelled.solid item) ?_ ?_
    · intro item _ value answered
      obtain ⟨phrase, found, rfl⟩ := Option.map_eq_some_iff.mp answered
      obtain ⟨found, same⟩ := Option.filter_eq_some_iff.mp found
      rw [beq_iff_eq] at same
      obtain ⟨reader, listed, claims⟩ := claims_own embed phrase
      rw [same, own, Option.some.injEq] at listed
      rwa [spelled.printed item phrase found, listed]
    · intro item member unanswered
      cases found : phrase? item with
      | none =>
        obtain ⟨word, same⟩ := spelled.plain item found
        rw [same]
        exact word.refuses_readers embed pass listed
      | some phrase =>
        rw [answerAt, found, Option.map_eq_none_iff, Option.filter_some] at unanswered
        have other : phrase.place ≠ place := by
          intro same
          rw [beq_iff_eq.mpr same] at unanswered
          cases unanswered
        have bound := within phrase (List.mem_filterMap.mpr ⟨item, member, found⟩)
        rw [spelled.printed item phrase found]
        exact refuses_later embed phrase own (by omega)
  refine ⟨?_, ?_⟩
  · rw [Pass.rest, Pass.pieces, scanned, Slot.rest_pieces]
  · rw [Pass.claims, Pass.pieces, scanned, Slot.tokens_pieces, List.filterMap_map,
      List.filterMap_filterMap, ← filterMap_answerAt]
    congr 1
    funext item
    cases answerAt phrase? place item <;> rfl

theorem words_of_plain (spelled : Spelled spell phrase?) {slots : List (Slot ω)}
    (apart : Slot.Apart slots) (plain : ∀ item ∈ Slot.words slots, phrase? item = none) :
    Text.words (Slot.text spell slots) =
      ((Slot.words slots).filter (fun item => (phrase? item).isNone)).map spell := by
  have all : (Slot.words slots).filter (fun item => (phrase? item).isNone) = Slot.words slots := by
    rw [List.filter_eq_self]
    intro item member
    rw [plain item member]
    rfl
  rw [all]
  apply Slot.words_text apart
  · intro item member
    obtain ⟨word, same⟩ := spelled.plain item (plain item member)
    rw [same]
    exact word.nonempty
  · intro item member
    obtain ⟨word, same⟩ := spelled.plain item (plain item member)
    rw [same]
    exact word.dark

theorem filter_isNone_clear (place : Nat) (slots : List (Slot ω)) :
    (Slot.words (slots.map (Slot.clear (answerAt phrase? place)))).filter
        (fun item => (phrase? item).isNone) =
      (Slot.words slots).filter (fun item => (phrase? item).isNone) := by
  rw [Slot.words_clear, List.filter_filter]
  apply List.filter_congr
  intro item _
  cases found : phrase? item <;> simp [answerAt, found]

/-- What passes from a number on do to a text whose phrases no earlier pass takes: they leave the
plain words. -/
theorem passes_spelled (spelled : Spelled spell phrase?) (suffix : List Pass) (place : Nat)
    (numbered : ∀ i pass, suffix[i]? = some pass →
      (readers embed)[place + i]? = some pass.reader ∧ pass ∈ placed (all embed))
    {slots : List (Slot ω)} (apart : Slot.Apart slots)
    (within : ∀ phrase ∈ (Slot.words slots).filterMap phrase?,
      place ≤ phrase.place ∧ phrase.place < place + suffix.length) :
    Text.words (Pass.restAll suffix (Slot.text spell slots)) =
        ((Slot.words slots).filter (fun item => (phrase? item).isNone)).map spell ∧
      (Pass.claimsAll suffix (Slot.text spell slots)).filterMap Claim.clause =
        (inPasses ((Slot.words slots).filterMap phrase?) place suffix.length).map
          Phrase.clause := by
  induction suffix generalizing place slots with
  | nil =>
    have plain : ∀ item ∈ Slot.words slots, phrase? item = none := by
      intro item member
      cases found : phrase? item with
      | none => rfl
      | some phrase =>
        have bounds := within phrase (List.mem_filterMap.mpr ⟨item, member, found⟩)
        rw [List.length_nil] at bounds
        omega
    exact ⟨words_of_plain spelled apart plain, rfl⟩
  | cons pass others ih =>
    obtain ⟨own, listed⟩ := numbered 0 pass rfl
    rw [Nat.add_zero] at own
    obtain ⟨rest, claims⟩ := pass_spelled spelled listed own apart (fun phrase member =>
      (within phrase member).1)
    have phrases := filterMap_isNone_answerAt phrase? place (Slot.words slots)
    rw [← Slot.words_clear] at phrases
    have later := ih (place + 1)
      (fun i other found => by
        have shifted := numbered (i + 1) other found
        rwa [← Nat.add_assoc, Nat.add_right_comm] at shifted)
      (apart.clear (answerAt phrase? place))
      (fun phrase member => by
        rw [phrases, List.mem_filter, bne_iff_ne] at member
        have bounds := within phrase member.1
        rw [List.length_cons] at bounds
        omega)
    rw [Pass.restAll_cons, Pass.claimsAll, rest, List.filterMap_append, claims, later.1, later.2,
      filter_isNone_clear, phrases, inPasses_filter _ (Nat.lt_succ_self place), List.length_cons,
      inPasses, List.map_append]
    exact ⟨rfl, rfl⟩

/-- The stages read every clause of a text and leave its plain words. -/
theorem runAll_spelled (embed : List Char → List Char → Option Query)
    (spelled : Spelled spell phrase?) {slots : List (Slot ω)} (apart : Slot.Apart slots)
    (selector : Selector) :
    ∃ rest, runAll (all embed) (Slot.text spell slots) selector =
        (rest, selector.addAll
          ((inPasses ((Slot.words slots).filterMap phrase?) 0 17).map Phrase.clause)) ∧
      Text.words rest =
        ((Slot.words slots).filter (fun item => (phrase? item).isNone)).map spell := by
  have numbered : ∀ i pass, (placed (all embed))[i]? = some pass →
      (readers embed)[0 + i]? = some pass.reader ∧ pass ∈ placed (all embed) := by
    intro i pass found
    have same : readers embed = (placed (all embed)).map Pass.reader := rfl
    rw [same, Nat.zero_add, List.getElem?_map, found]
    exact ⟨rfl, List.mem_of_getElem? found⟩
  have size : (placed (all embed)).length = 17 := rfl
  obtain ⟨words, claims⟩ :=
    passes_spelled spelled (placed (all embed)) 0 numbered apart (fun phrase _ => by
      have bound := place_le phrase
      omega)
  rw [size] at claims
  refine ⟨_, ?_, words⟩
  rw [runAll_eq, claims]

theorem runAll_printed {slots : List (Slot Phrase)} (apart : Slot.Apart slots)
    (selector : Selector) :
    Text.words (runAll (all embed) (Slot.printed slots) selector).1 = [] ∧
      (runAll (all embed) (Slot.printed slots) selector).2 =
        selector.addAll ((inPasses (Slot.words slots) 0 17).map Phrase.clause) := by
  obtain ⟨rest, run, words⟩ := runAll_spelled embed Phrase.spelled apart selector
  have none : (Slot.words slots).filter (fun phrase => (some phrase).isNone) = [] := by
    rw [List.filter_eq_nil_iff]
    intro phrase _
    simp only [Option.isNone_some, Bool.false_eq_true, not_false_eq_true]
  rw [none, List.map_nil] at words
  rw [List.filterMap_some] at run
  rw [Slot.printed, run]
  exact ⟨words, rfl⟩

end Stage

end SelectorLang
