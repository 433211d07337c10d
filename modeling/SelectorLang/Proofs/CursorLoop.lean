import SelectorLang.Proofs.LiteralSpans
import SelectorLang.Proofs.Nesting
import SelectorLang.Proofs.Partition
import SelectorLang.Proofs.PlacedWords
import SelectorLang.Proofs.Shrinking

set_option autoImplicit false

namespace SelectorLang

theorem Text.byteOffset_lt_iff {text : List Char} {first second : Nat}
    (within : first ≤ text.length) (inside : second ≤ text.length) :
    byteOffset text first < byteOffset text second ↔ first < second := by
  rcases Nat.lt_trichotomy first second with before | rfl | behind
  · exact iff_of_true (byteLength_take_lt before (by omega)) before
  · exact iff_of_false (Nat.lt_irrefl _) (Nat.lt_irrefl _)
  · have reverse := byteLength_take_lt behind (show second < text.length by omega)
    exact iff_of_false (Nat.lt_asymm reverse) (Nat.lt_asymm behind)

theorem Literal.any_bytes (text : List Char) {offset : Nat} (within : offset ≤ text.length) :
    ((spans text).map (Span.bytes text)).any (fun literal =>
        decide (literal.1 < Text.byteOffset text offset) &&
          decide (Text.byteOffset text offset < literal.2)) =
      surrounds (spans text) offset := by
  rw [List.any_map, surrounds, Bool.eq_iff_iff, List.any_eq_true, List.any_eq_true]
  refine exists_congr (fun literal => and_congr_right (fun member => ?_))
  obtain ⟨proper, most⟩ := bounds_of_mem member
  rw [Nat.zero_add] at most
  have start := Text.byteOffset_lt_iff (Nat.le_trans proper most) within
  have stop := Text.byteOffset_lt_iff within most
  simp only [Function.comp_apply, Span.bytes, Span.strictlyInside, Bool.and_eq_true,
    decide_eq_true_eq, start, stop]

namespace Cursor

variable {α : Type}

/-- A token that a search finds: the bytes at which it begins and ends, and what it says. -/
structure Found (α : Type) where
  start : Nat
  stop : Nat
  value : α

/-- The first token that begins in a text at a byte place or behind it. A token may begin behind a
blank that begins at the cursor or later; `start` tells whether one may begin at the place
itself. -/
def searchFrom (reader : Reader α) (cursor : Nat) : Bool → Nat → List Char → Option (Found α)
  | _, _, [] => none
  | start, place, c :: rest =>
    match (if start then Token.readAt reader (c :: rest) else none) with
    | some (length, value) =>
      some ⟨place, place + Text.byteLength ((c :: rest).take length), value⟩
    | none =>
      searchFrom reader cursor (decide (cursor ≤ place) && isBlank c) (place + c.utf8Size) rest

/-- The first token of a text from the cursor on. The start of the text does for a blank in front,
but only for a cursor that stands there. -/
def search (reader : Reader α) (text : List Char) (cursor : Nat) : Option (Found α) :=
  searchFrom reader cursor (cursor == 0) 0 text

/-- The number of bytes of the character at a byte place, and one at the end of the text. There is
no answer inside a character. -/
def stride? (text : List Char) (place : Nat) : Option Nat :=
  (Text.dropBytes? place text).map (fun rest =>
    match rest with
    | [] => 1
    | c :: _ => c.utf8Size)

inductive Round (α : Type) where
  | done
  | go (next : Nat) (visited : Option (Found α))

/-- One round: a token inside a literal is passed over by one character, any other one is visited.
There is no answer if the text is cut inside a character. -/
def round? (reader : Reader α) (text : List Char) (cursor : Nat) : Option (Round α) :=
  match search reader text cursor with
  | none => some .done
  | some found =>
    if ((Literal.spans text).map (Span.bytes text)).any (fun literal =>
        decide (literal.1 < found.start) && decide (found.start < literal.2)) then
      (stride? text found.start).map (fun size => .go (found.start + size) none)
    else some (.go found.stop (some found))

/-- The tokens that are visited from a cursor on in so many rounds. There is no answer if these do
not do. -/
def visits? (reader : Reader α) (text : List Char) : Nat → Nat → Option (List (Found α))
  | 0, cursor => if Text.byteLength text < cursor then some [] else none
  | rounds + 1, cursor =>
    if Text.byteLength text < cursor then some []
    else (round? reader text cursor).bind (fun round =>
      match round with
      | .done => some []
      | .go next visited =>
        (visits? reader text rounds next).map (fun others => visited.toList ++ others))

def strip? (reader : Reader α) (text : List Char) : Option (List Char) := do
  let visited ← visits? reader text (Text.byteLength text + 1) 0
  if visited.isEmpty then some text
  else blankOutBytes? text 0 (visited.map (fun found => (found.start, found.stop)))

theorem searchFrom_bounds {reader : Reader α} {cursor place : Nat} {start : Bool} {text : List Char}
    {found : Found α} (ready : start = true → cursor ≤ place)
    (success : searchFrom reader cursor start place text = some found) :
    cursor ≤ found.start ∧ found.start < found.stop := by
  induction text generalizing start place with
  | nil => cases success
  | cons c rest ih =>
    rw [searchFrom] at success
    split at success
    · rename_i length value read
      obtain ⟨begins, read⟩ := Token.ready_of_found read
      obtain ⟨positive, _⟩ := Token.readAt_bounds _ _ _ _ read
      obtain ⟨more, rfl⟩ : ∃ more, length = more + 1 := ⟨length - 1, by omega⟩
      cases success
      exact ⟨ready begins, Nat.lt_add_of_pos_right (Text.byteLength_pos (List.cons_ne_nil _ _))⟩
    · refine ih (fun begins => ?_) success
      rw [Bool.and_eq_true, decide_eq_true_eq] at begins
      omega

/-- Every round that does not end the loop moves the cursor on. -/
theorem lt_of_round? {reader : Reader α} {text : List Char} {cursor next : Nat}
    {visited : Option (Found α)} (going : round? reader text cursor = some (.go next visited)) :
    cursor < next := by
  rw [round?] at going
  split at going
  · cases going
  · rename_i found success
    have bounds : cursor ≤ found.start ∧ found.start < found.stop :=
      searchFrom_bounds (fun zero => by rw [beq_iff_eq] at zero; omega) success
    split at going
    · obtain ⟨size, stride, same⟩ := Option.map_eq_some_iff.mp going
      have positive : 0 < size := by
        obtain ⟨rest, _, rfl⟩ := Option.map_eq_some_iff.mp stride
        cases rest with
        | nil => exact Nat.one_pos
        | cons c _ => exact c.utf8Size_pos
      cases same
      omega
    · cases going
      omega

section Search

variable {reader : Reader α} {cursor : Nat}

/-- In front of the cursor no token begins. -/
theorem searchFrom_before (front rest : List Char) {place : Nat}
    (before : place + Text.byteLength front ≤ cursor) :
    searchFrom reader cursor false place (front ++ rest) =
      searchFrom reader cursor false (place + Text.byteLength front) rest := by
  induction front generalizing place with
  | nil => rfl
  | cons c others ih =>
    rw [Text.byteLength, ← Nat.add_assoc] at before ⊢
    have positive := c.utf8Size_pos
    have early : decide (cursor ≤ place) = false := by
      rw [decide_eq_false_iff_not]
      omega
    rw [← ih before, List.cons_append, searchFrom]
    simp only [Bool.false_eq_true, ↓reduceIte, early, Bool.false_and]

/-- Nor does one in a word. -/
theorem searchFrom_dark {word : List Char} (dark : ∀ c ∈ word, isBlank c = false) (place : Nat)
    (after : List Char) :
    searchFrom reader cursor false place (word ++ after) =
      searchFrom reader cursor false (place + Text.byteLength word) after := by
  induction word generalizing place with
  | nil => rfl
  | cons c others ih =>
    rw [Text.byteLength, ← Nat.add_assoc,
      ← ih (fun d member => dark d (List.mem_cons_of_mem c member)), List.cons_append, searchFrom]
    simp only [Bool.false_eq_true, ↓reduceIte, dark c List.mem_cons_self, Bool.and_false]

theorem searchFrom_gap (dark : reader.Dark) {c : Char} (blank : isBlank c = true) (start : Bool)
    {place : Nat} (behind : cursor ≤ place) (rest : List Char) :
    searchFrom reader cursor start place (c :: rest) =
      searchFrom reader cursor true (place + c.utf8Size) rest := by
  rw [searchFrom, Token.readAt_of_none (dark c rest blank), ite_self]
  simp only [behind, decide_true, blank, Bool.and_self]

theorem searchFrom_ends (dark : reader.Dark) {after : List Char}
    (ends : Token.endsWord after = true)
    (start other : Bool) {place : Nat} (behind : cursor ≤ place) :
    searchFrom reader cursor start place after = searchFrom reader cursor other place after := by
  cases after with
  | nil => rfl
  | cons c rest => rw [searchFrom_gap dark ends _ behind, searchFrom_gap dark ends _ behind]

theorem searchFrom_taken {text : List Char} {length : Nat} {value : α}
    (read : Token.readAt reader text = some (length, value)) (place : Nat) :
    searchFrom reader cursor true place text =
      some ⟨place, place + Text.byteLength (text.take length), value⟩ := by
  cases text with
  | nil =>
    rw [Token.readAt_nil] at read
    cases read
  | cons c rest => rw [searchFrom, if_pos rfl, read]

theorem searchFrom_refused {word after : List Char} (nonempty : word ≠ [])
    (dark : ∀ c ∈ word, isBlank c = false)
    (refused : Token.readAt reader (word ++ after) = none) (place : Nat) :
    searchFrom reader cursor true place (word ++ after) =
      searchFrom reader cursor false (place + Text.byteLength word) after := by
  rw [← searchFrom_dark dark]
  obtain ⟨c, others, rfl⟩ := List.exists_cons_of_ne_nil nonempty
  rw [List.cons_append] at refused ⊢
  rw [searchFrom, searchFrom, if_pos rfl, refused, if_neg Bool.false_ne_true]

end Search

def answered (answer : List Char → Option α) (words : List PlacedWord) :
    List (PlacedWord × α) :=
  words.filterMap (fun word => (answer word.chars).map (word, ·))

def Found.ofWord (text : List Char) (word : PlacedWord × α) : Found α :=
  ⟨Text.byteOffset text word.1.offset, Text.byteOffset text word.1.span.stop, word.2⟩

variable {reader : Reader α} {answer : List Char → Option α}

/-- A search along a text finds the first word that has an answer. -/
theorem searchFrom_eq (takes : reader.TakesWords answer) (before text : List Char) {cursor : Nat}
    (behind : cursor ≤ Text.byteLength before) :
    searchFrom reader cursor true (Text.byteLength before) text =
      (answered answer (Text.placedFrom true before.length text)).head?.map
        (Found.ofWord (before ++ text)) := by
  induction text using Text.word_induction generalizing before with
  | nil => rfl
  | gap c rest blank ih =>
    have parts : before ++ c :: rest = (before ++ [c]) ++ rest := by simp
    have size : Text.byteLength (before ++ [c]) = Text.byteLength before + c.utf8Size :=
      Text.byteLength_append _ _
    have later := ih (before ++ [c]) (by omega)
    rw [size, List.length_append] at later
    rw [searchFrom_gap takes.dark blank true behind, later, Text.placedFrom_gap blank, parts]
    rfl
  | word word after nonempty dark ends ih =>
    have parts : before ++ (word ++ after) = (before ++ word) ++ after := by simp
    have read := takes.reads word after nonempty dark ends
    rw [Text.placedFrom_word nonempty dark ends, answered, List.filterMap_cons]
    have size : Text.byteLength (before ++ word) =
        Text.byteLength before + Text.byteLength word := Text.byteLength_append _ _
    cases said : answer word with
    | some value =>
      rw [said, Option.map_some] at read
      have start : Text.byteOffset (before ++ (word ++ after)) before.length =
          Text.byteLength before := by rw [Text.byteOffset, List.take_left]
      have stop : Text.byteOffset (before ++ (word ++ after)) (before.length + word.length) =
          Text.byteLength before + Text.byteLength word := by
        rw [Text.byteOffset, parts, ← List.length_append, List.take_left, size]
      rw [searchFrom_taken read, List.take_left]
      simp only [Option.map_some, List.head?_cons, Found.ofWord, PlacedWord.span, start, stop]
    | none =>
      rw [said, Option.map_none] at read
      have later := ih (before ++ word) (by omega)
      rw [size, List.length_append] at later
      rw [searchFrom_refused nonempty dark read,
        searchFrom_ends takes.dark ends false true (by omega), later, parts]
      rfl

/-- The rest of a word in which a search begins is not looked at. -/
theorem searchFrom_inside (takes : reader.TakesWords answer) (before text : List Char)
    {cursor : Nat} (behind : cursor ≤ Text.byteLength before) :
    searchFrom reader cursor false (Text.byteLength before) text =
      (answered answer (Text.placedFrom false before.length text)).head?.map
        (Found.ofWord (before ++ text)) := by
  obtain ⟨tail, after, rfl, dark, ends⟩ := Text.exists_tail text
  have size : Text.byteLength (before ++ tail) =
      Text.byteLength before + Text.byteLength tail := Text.byteLength_append _ _
  have within : cursor ≤ Text.byteLength (before ++ tail) := by omega
  have found := searchFrom_eq takes (before ++ tail) after within
  rw [size, List.length_append, List.append_assoc] at found
  rw [searchFrom_dark dark, searchFrom_ends takes.dark ends false true (size ▸ within), found,
    Text.placedFrom_dark dark, Text.placedFrom_ends ends false true]

theorem search_eq (takes : reader.TakesWords answer) (text : List Char) {offset : Nat}
    (within : offset ≤ text.length) :
    search reader text (Text.byteOffset text offset) =
      (answered answer (Text.ahead text offset)).head?.map (Found.ofWord text) := by
  cases offset with
  | zero => exact searchFrom_eq takes [] text (Nat.le_refl 0)
  | succ offset =>
    have later : (Text.byteOffset text (offset + 1) == 0) = false := by
      have before := (Text.byteOffset_lt_iff (Nat.zero_le _) within).mpr (Nat.succ_pos offset)
      rw [beq_eq_false_iff_ne]
      omega
    have skipped : searchFrom reader (Text.byteOffset text (offset + 1)) false 0
          (text.take (offset + 1) ++ text.drop (offset + 1)) =
        searchFrom reader (Text.byteOffset text (offset + 1)) false
          (0 + Text.byteOffset text (offset + 1)) (text.drop (offset + 1)) :=
      searchFrom_before _ _ (Nat.le_of_eq (Nat.zero_add _))
    have found := searchFrom_inside takes (text.take (offset + 1)) (text.drop (offset + 1))
      (Nat.le_refl _)
    rw [List.take_append_drop, Nat.zero_add] at skipped
    rw [List.take_append_drop, List.length_take, Nat.min_eq_left within] at found
    rw [search, later, skipped]
    exact found

theorem stride?_eq {text : List Char} {offset : Nat} (inside : offset < text.length) :
    stride? text (Text.byteOffset text offset) =
      some (Text.byteOffset text (offset + 1) - Text.byteOffset text offset) := by
  have front := Text.dropBytes?_append (text.take offset) (text.drop offset)
  rw [List.take_append_drop, List.drop_eq_getElem_cons inside] at front
  rw [Text.byteOffset_succ (List.getElem?_eq_getElem inside), Nat.add_sub_cancel_left, stride?,
    Text.byteOffset, front]
  rfl

/-- A round takes the first word that has an answer off those that are ahead. -/
theorem round?_eq (takes : reader.TakesWords answer) (text : List Char) {offset : Nat}
    (within : offset ≤ text.length) :
    match answered answer (Text.ahead text offset) with
    | [] => round? reader text (Text.byteOffset text offset) = some .done
    | word :: others =>
      ∃ next ≤ text.length, answered answer (Text.ahead text next) = others ∧
        round? reader text (Text.byteOffset text offset) =
          some (.go (Text.byteOffset text next)
            (if Literal.surrounds (Literal.spans text) word.1.offset then none
              else some (Found.ofWord text word))) := by
  have search := search_eq takes text within
  split
  · rename_i none
    rw [none] at search
    rw [round?, search]
    rfl
  · rename_i word others found
    rw [found] at search
    obtain ⟨passed, first, behind, parts, _, said, later⟩ := List.filterMap_eq_cons_iff.mp found
    obtain ⟨value, _, rfl⟩ := Option.map_eq_some_iff.mp said
    obtain ⟨_, proper, stop, next, past⟩ := Text.ahead_split parts
    have masked := Literal.any_bytes text (show first.offset ≤ text.length by omega)
    cases inside : Literal.surrounds (Literal.spans text) first.offset with
    | true =>
      have order := (Text.byteOffset_lt_iff (show first.offset ≤ text.length by omega)
        (show first.offset + 1 ≤ text.length by omega)).mpr (Nat.lt_succ_self _)
      refine ⟨first.offset + 1, by omega, by rw [next]; exact later, ?_⟩
      rw [inside] at masked
      simp only [round?, search, List.head?_cons, Option.map_some, Found.ofWord, masked, ↓reduceIte,
        stride?_eq (show first.offset < text.length by omega), Option.some.injEq, Round.go.injEq,
        and_true]
      omega
    | false =>
      refine ⟨first.span.stop, stop, by rw [past]; exact later, ?_⟩
      rw [inside] at masked
      simp only [round?, search, List.head?_cons, Option.map_some, Found.ofWord, masked,
        Bool.false_eq_true, ↓reduceIte]

def exposed (literals : List Span) (words : List (PlacedWord × α)) : List (PlacedWord × α) :=
  words.filter (fun word => !Literal.surrounds literals word.1.offset)

/-- In rounds enough the loop visits every word ahead that has an answer and is exposed. -/
theorem visits?_ahead (takes : reader.TakesWords answer) (text : List Char) {rounds offset : Nat}
    (within : offset ≤ text.length)
    (enough : Text.byteLength text < rounds + Text.byteOffset text offset) :
    visits? reader text rounds (Text.byteOffset text offset) =
      some ((exposed (Literal.spans text) (answered answer (Text.ahead text offset))).map
        (Found.ofWord text)) := by
  -- Every round moves the cursor on, so rounds and bytes run out together.
  induction rounds generalizing offset with
  | zero =>
    have most := Text.byteLength_le_of_sublist (List.take_sublist offset text)
    rw [Text.byteOffset] at enough
    omega
  | succ rounds ih =>
    have most := Text.byteLength_le_of_sublist (List.take_sublist offset text)
    have stays : ¬Text.byteLength text < Text.byteOffset text offset := Nat.not_lt_of_le most
    have round := round?_eq takes text within
    rw [visits?, if_neg stays]
    split at round
    · rename_i none
      rw [round, none]
      rfl
    · rename_i word others found
      obtain ⟨next, fits, later, going⟩ := round
      have on := lt_of_round? going
      have rest := ih fits (by omega)
      rw [going, found]
      simp only [Option.bind_some, rest, later, Option.map_some, exposed, List.filter_cons]
      cases Literal.surrounds (Literal.spans text) word.1.offset <;> rfl

def taken (answer : List Char → Option α) (literals : List Span) (words : List PlacedWord) :
    List PlacedWord :=
  (exposed literals (answered answer words)).map Prod.fst

theorem taken_eq_filter (answer : List Char → Option α) (literals : List Span)
    (words : List PlacedWord) :
    taken answer literals words = words.filter (fun word =>
      (answer word.chars).isSome && !Literal.surrounds literals word.offset) := by
  induction words with
  | nil => rfl
  | cons word others ih =>
    simp only [taken, exposed, answered] at ih
    simp only [taken, exposed, answered, List.filterMap_cons, List.filter_cons, ← ih]
    cases answer word.chars with
    | none => rfl
    | some value => cases surrounded : Literal.surrounds literals word.offset <;> simp [surrounded]

theorem visits?_eq (takes : reader.TakesWords answer) (text : List Char) :
    visits? reader text (Text.byteLength text + 1) 0 =
      some ((exposed (Literal.spans text) (answered answer (Text.placedWords text))).map
        (Found.ofWord text)) :=
  visits?_ahead takes text (Nat.zero_le _) (Nat.lt_succ_self _)

theorem scanFrom_word (takes : reader.TakesWords answer) (literals : List Span)
    {word after : List Char} (nonempty : word ≠ []) (dark : ∀ c ∈ word, isBlank c = false)
    (ends : Token.endsWord after = true) (offset : Nat) :
    Token.scanFrom reader literals 0 offset true (word ++ after) =
      Slot.wordPieces word
          (MarkedWord.answer answer ⟨word, Literal.surrounds literals offset⟩) ++
        Token.scanFrom reader literals 0 (offset + word.length) true after := by
  obtain ⟨start, front⟩ := Token.scanFrom_word literals takes nonempty dark ends offset
  rw [front, Token.scanFrom_ends literals takes.dark ends _ start true]

/-- Scanning finds the words that the loop visits. -/
theorem tokens_scanFrom (takes : reader.TakesWords answer) (literals : List Span) (offset : Nat)
    (text : List Char) :
    Piece.tokens (Token.scanFrom reader literals 0 offset true text) =
      (exposed literals (answered answer (Text.placedFrom true offset text))).map
        (fun word => (word.1.chars, word.2)) := by
  induction text using Text.word_induction generalizing offset with
  | nil => rfl
  | gap c rest blank ih =>
    rw [Slot.scanFrom_gap takes.dark literals blank, Piece.tokens, ih, Text.placedFrom_gap blank]
  | word word after nonempty dark ends ih =>
    rw [scanFrom_word takes literals nonempty dark ends, Text.placedFrom_word nonempty dark ends,
      answered, List.filterMap_cons]
    cases said : answer word with
    | none =>
      have silent : MarkedWord.answer answer ⟨word, Literal.surrounds literals offset⟩ = none := by
        simp only [MarkedWord.answer, said, ite_self]
      rw [silent, Slot.wordPieces, Slot.tokens_others, ih]
      rfl
    | some value =>
      simp only [MarkedWord.answer, said, Option.map_some, exposed, List.filter_cons]
      cases Literal.surrounds literals offset with
      | true => exact (Slot.tokens_others _ _).trans (ih _)
      | false => exact congrArg ((word, value) :: ·) (ih _)

theorem within_taken (answer : List Char → Option α) (literals : List Span) (offset : Nat)
    (text : List Char) :
    Span.Within (offset + text.length) offset
      ((taken answer literals (Text.placedFrom true offset text)).map PlacedWord.span) := by
  rw [taken_eq_filter]
  exact (Text.within_placedFrom offset text).sublist (List.filter_sublist.map _)

/-- A scan leaves a space for each of these words and all else as it is. -/
theorem rest_scanFrom (takes : reader.TakesWords answer) (literals : List Span) (offset : Nat)
    (text : List Char) :
    Piece.rest (Token.scanFrom reader literals 0 offset true text) =
      Span.blankOutFrom offset
        ((taken answer literals (Text.placedFrom true offset text)).map PlacedWord.span) text := by
  have behind : ∀ (place : Nat) (rest : List Char),
      ∀ span ∈ (taken answer literals (Text.placedFrom true place rest)).map PlacedWord.span,
        place ≤ span.start ∧ span.start ≤ span.stop := by
    intro place rest span member
    obtain ⟨start, proper, _⟩ := (within_taken answer literals place rest).of_mem member
    exact ⟨start, Nat.le_of_lt proper⟩
  induction text using Text.word_induction generalizing offset with
  | nil => rfl
  | gap c rest blank ih =>
    have kept := Span.blankOutFrom_append offset _ [c] rest (behind (offset + 1) rest)
    rw [Slot.scanFrom_gap takes.dark literals blank, Piece.rest, ih, Text.placedFrom_gap blank]
    exact kept.symm
  | word word after nonempty dark ends ih =>
    have kept := Span.blankOutFrom_append offset _ word after (behind (offset + word.length) after)
    rw [scanFrom_word takes literals nonempty dark ends, Text.placedFrom_word nonempty dark ends,
      taken_eq_filter, List.filter_cons, ← taken_eq_filter]
    by_cases own : ((answer word).isSome && !Literal.surrounds literals offset) = true
    · have both := own
      rw [Bool.and_eq_true, Bool.not_eq_true'] at both
      obtain ⟨value, said⟩ := Option.isSome_iff_exists.mp both.1
      have width : offset + word.length - offset = word.length := Nat.add_sub_cancel_left _ _
      rw [if_pos own]
      simp only [MarkedWord.answer, both.2, said, Bool.false_eq_true, ↓reduceIte, Slot.wordPieces,
        List.singleton_append, Piece.rest, ih, List.map_cons, Span.blankOutFrom, PlacedWord.span,
        Nat.sub_self, List.take_zero, List.nil_append, width, List.drop_left]
    · have silent : MarkedWord.answer answer ⟨word, Literal.surrounds literals offset⟩ = none := by
        cases masked : Literal.surrounds literals offset with
        | true => rfl
        | false => simpa [masked, MarkedWord.answer] using own
      rw [if_neg own, silent, Slot.wordPieces, Slot.rest_others, ih, kept]

/-- The loop leaves what the scan leaves, with every cut between characters. -/
theorem strip?_eq (takes : reader.TakesWords answer) (text : List Char) :
    strip? reader text = some (Piece.rest (Token.scan reader text)) := by
  have within := within_taken answer (Literal.spans text) 0 text
  rw [Nat.zero_add] at within
  have spans : ((exposed (Literal.spans text) (answered answer (Text.placedWords text))).map
      (Found.ofWord text)).map (fun found => (found.start, found.stop)) =
      ((taken answer (Literal.spans text) (Text.placedWords text)).map PlacedWord.span).map
        (Span.bytes text) := by
    simp only [taken, List.map_map]
    rfl
  have cut := blankOutBytes?_within text within
  rw [strip?, visits?_eq takes text]
  simp only [bind, Option.bind_some, spans]
  rw [Token.scan, rest_scanFrom takes]
  split
  · rename_i none
    rw [List.isEmpty_iff, List.map_eq_nil_iff] at none
    have nothing : taken answer (Literal.spans text) (Text.placedFrom true 0 text) = [] :=
      congrArg (List.map Prod.fst) none
    rw [nothing]
    rfl
  · exact cut

end Cursor

end SelectorLang
