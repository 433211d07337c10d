import SelectorLang.Proofs.ClauseTokens
import SelectorLang.Proofs.LoneTokens
import SelectorLang.Proofs.PrintedTexts
import SelectorLang.Proofs.Pruning

set_option autoImplicit false

namespace SelectorLang

open Reader

namespace Directive

inductive Kind where
  | limit
  | offset
  | sort
  | reverse
deriving DecidableEq, Repr

namespace Kind

def name : Kind → List Char
  | .limit => ['l', 'i', 'm', 'i', 't']
  | .offset => ['o', 'f', 'f', 's', 'e', 't']
  | .sort => ['s', 'o', 'r', 't']
  | .reverse => ['r', 'e', 'v', 'e', 'r', 's', 'e']

def accepts : Kind → List Char → Bool
  | .limit, operand => !operand.isEmpty && operand.all isDecimalDigit
  | .offset, operand => !operand.isEmpty && operand.all isDecimalDigit
  | .sort, operand => !operand.isEmpty && operand.all isWordChar
  | .reverse, operand =>
    [['t', 'r', 'u', 'e'], ['f', 'a', 'l', 's', 'e'], ['1'], ['0']].contains operand

def operand? (kind : Kind) (word : List Char) : Option (List Char) :=
  let lead := kind.name ++ [':']
  let operand := word.drop lead.length
  if lead.isPrefixOf word && kind.accepts operand then some operand else none

/-- The operands of the directives of a text, in order. -/
def operands (kind : Kind) (text : List Char) : List (List Char) :=
  (Literal.openWords text).filterMap kind.operand?

theorem operand?_eq_some {kind : Kind} {word operand : List Char} :
    kind.operand? word = some operand ↔
      word = kind.name ++ ':' :: operand ∧ kind.accepts operand = true := by
  have parts : kind.name ++ ':' :: operand = (kind.name ++ [':']) ++ operand := by simp
  rw [parts]
  constructor
  · intro found
    simp only [operand?] at found
    split at found
    · rename_i both
      rw [Bool.and_eq_true, List.isPrefixOf_iff_prefix] at both
      obtain ⟨⟨rest, rfl⟩, accepted⟩ := both
      rw [List.drop_left] at found accepted
      cases found
      exact ⟨rfl, accepted⟩
    · cases found
  · rintro ⟨rfl, accepted⟩
    have lead : (kind.name ++ [':']).isPrefixOf ((kind.name ++ [':']) ++ operand) = true := by
      rw [List.isPrefixOf_iff_prefix]
      exact List.prefix_append _ _
    simp only [operand?, lead, List.drop_left, accepted, Bool.and_self, ↓reduceIte]

/-- A word is a directive of one kind only. -/
theorem operand?_of_ne {kind other : Kind} (differs : other ≠ kind) {word : List Char}
    (found : (kind.operand? word).isSome = true) : other.operand? word = none := by
  obtain ⟨operand, found⟩ := Option.isSome_iff_exists.mp found
  obtain ⟨rfl, _⟩ := operand?_eq_some.mp found
  cases second : other.operand? (kind.name ++ ':' :: operand) with
  | none => rfl
  | some behind =>
    obtain ⟨same, _⟩ := operand?_eq_some.mp second
    cases kind <;> cases other <;> simp [name] at same differs

theorem isInert_of_accepted {accepts : Char → Bool}
    (words : ∀ c, isBlank c = true → accepts c = false)
    (signs : ['~', '"', '/', '\\'].any accepts = false) {c : Char}
    (accepted : accepts c = true) : Literal.isInert c = true := by
  have dark : isBlank c = false := refused_of_accepted words accepted
  have other : ∀ d ∈ ['~', '"', '/', '\\'], c ≠ d :=
    fun d member => ne_of_accepted accepted
      (Bool.eq_false_iff.mpr (List.any_eq_false.mp signs d member))
  simp only [List.forall_mem_cons] at other
  obtain ⟨tilde, quote, slash, backslash, _⟩ := other
  simp only [Literal.isInert, Bool.and_eq_true, bne_iff_ne, isBare_iff]
  exact ⟨⟨⟨dark, tilde, quote⟩, slash⟩, backslash⟩

theorem isInert_of_isFieldChar {c : Char} (name : isFieldChar c = true) :
    Literal.isInert c = true :=
  isInert_of_accepted (fun _ => isFieldChar_of_blank) rfl name

/-- The characters of an operand have no part in a literal. -/
theorem inert_of_accepts (kind : Kind) {operand : List Char}
    (accepted : kind.accepts operand = true) :
    ∀ c ∈ operand, Literal.isInert c = true := by
  intro c member
  have digits : operand.all isDecimalDigit = true → Literal.isInert c = true := fun all =>
    isInert_of_accepted (fun _ => isDecimalDigit_of_blank) rfl
      (List.all_eq_true.mp all c member)
  cases kind with
  | limit => exact digits (Bool.and_eq_true _ _ ▸ accepted).2
  | offset => exact digits (Bool.and_eq_true _ _ ▸ accepted).2
  | sort =>
    have all : operand.all isWordChar = true := (Bool.and_eq_true _ _ ▸ accepted).2
    exact isInert_of_isFieldChar (isFieldChar_of_isWordChar (List.all_eq_true.mp all c member))
  | reverse =>
    have known : operand ∈ [['t', 'r', 'u', 'e'], ['f', 'a', 'l', 's', 'e'], ['1'], ['0']] := by
      simpa only [accepts, List.contains_iff_mem] using accepted
    simp only [List.mem_cons, List.not_mem_nil, or_false] at known
    rcases known with rfl | rfl | rfl | rfl <;> exact List.all_eq_true.mp rfl c member

theorem inert (kind : Kind) {word : List Char} (found : (kind.operand? word).isSome = true) :
    ∀ c ∈ word, Literal.isInert c = true := by
  obtain ⟨operand, found⟩ := Option.isSome_iff_exists.mp found
  obtain ⟨rfl, accepted⟩ := operand?_eq_some.mp found
  have letters : ∀ c ∈ kind.name, Literal.isInert c = true := by
    cases kind <;> exact List.all_eq_true.mp rfl
  exact List.forall_mem_append.mpr
    ⟨letters, List.forall_mem_cons.mpr ⟨rfl, kind.inert_of_accepts accepted⟩⟩

end Kind

variable {α : Type}

/-- A reader of the operands of a kind reads the directives of the kind behind their names. -/
theorem takesWords_of_operand (kind : Kind) {reader : Reader α} {value : List Char → α}
    (takes : reader.Takes (fun lexeme found => kind.accepts lexeme = true ∧ found = value lexeme))
    (claims :
      ∀ operand, kind.accepts operand = true → Token.Claims reader operand (value operand)) :
    (exactly (kind.name ++ [':']) >>= fun _ => reader).TakesWords
      (fun word => (kind.operand? word).map value) := by
  have parts : ∀ operand after : List Char, (kind.name ++ ':' :: operand) ++ after =
      (kind.name ++ [':']) ++ (operand ++ after) := by simp
  apply Takes.takesWords
  · refine ((takes_exactly _).bind (fun _ => takes)).mono ?_
    rintro _ _ ⟨_, _, operand, rfl, rfl, accepted, rfl⟩
    have found : kind.operand? (kind.name ++ [':'] ++ operand) = some operand := by
      apply Kind.operand?_eq_some.mpr
      rw [List.append_assoc]
      exact ⟨rfl, accepted⟩
    refine ⟨fun c member => ?_, by rw [found, Option.map_some]⟩
    have plain := kind.inert (by rw [found]; rfl) c member
    simp only [Literal.isInert, Bool.and_eq_true, isBare_iff] at plain
    exact plain.1.1.1
  · cases kind <;> exact (dark_exactly rfl).bind _
  · intro word said answered after ends
    obtain ⟨operand, found, rfl⟩ := Option.map_eq_some_iff.mp answered
    obtain ⟨rfl, accepted⟩ := Kind.operand?_eq_some.mp found
    rw [parts, bind_of_some _ (exactly_append _ _)]
    exact claims operand accepted after ends

theorem takesWords_run1 (kind : Kind) {accepts : Char → Bool}
    (own : ∀ operand, kind.accepts operand = (!operand.isEmpty && operand.all accepts))
    (words : ∀ c, isBlank c = true → accepts c = false) (value : List Char → α) :
    (exactly (kind.name ++ [':']) >>= fun _ => run1 accepts >>= fun operand =>
      pure (value operand)).TakesWords (fun word => (kind.operand? word).map value) := by
  apply takesWords_of_operand
  · refine ((takes_run1 accepts).bind (fun operand => takes_pure (value operand))).mono ?_
    rintro _ _ ⟨_, operand, _, rfl, ⟨rfl, nonempty, all⟩, rfl, rfl⟩
    rw [List.append_nil, own]
    simp [nonempty, all]
  · intro operand accepted after ends
    rw [own, Bool.and_eq_true, Bool.not_eq_true', List.isEmpty_eq_false_iff] at accepted
    rw [bind_of_some _ (run1_append accepted.1 accepted.2 (stops_of_endsWord ends words))]
    rfl

theorem takes_limits : limit.TakesWords (fun word => (Kind.limit.operand? word).map wordOf?) :=
  takesWords_run1 .limit (fun _ => rfl) (fun _ => isDecimalDigit_of_blank) wordOf?

theorem takes_offsets : offset.TakesWords (fun word => (Kind.offset.operand? word).map wordOf?) :=
  takesWords_run1 .offset (fun _ => rfl) (fun _ => isDecimalDigit_of_blank) wordOf?

def fieldOf? (name : List Char) : Option SortField := SortField.ofName? (String.ofList name)

theorem takes_sorts : sort.TakesWords (fun word => (Kind.sort.operand? word).map fieldOf?) := by
  refine takesWords_run1 .sort (fun _ => rfl) (fun c blank => ?_) fieldOf?
  rw [Bool.eq_false_iff]
  intro word
  have name := isFieldChar_of_isWordChar word
  rw [isFieldChar_of_blank blank] at name
  cases name

def turns (operand : List Char) : Bool := operand = ['t', 'r', 'u', 'e'] || operand = ['1']

theorem takes_reversals :
    reverse.TakesWords (fun word => (Kind.reverse.operand? word).map turns) := by
  have one : ∀ (text : List Char) (value : Bool), Kind.reverse.accepts text = true →
      turns text = value → (exactly text >>= fun _ => pure value : Reader Bool).Takes
        (fun lexeme found => Kind.reverse.accepts lexeme = true ∧ found = turns lexeme) := by
    intro text value accepted said
    refine ((takes_exactly text).bind (fun _ => takes_pure value)).mono ?_
    rintro _ _ ⟨_, _, _, rfl, rfl, rfl, rfl⟩
    rw [List.append_nil]
    exact ⟨accepted, said.symm⟩
  refine takesWords_of_operand .reverse
    (.orElse (one _ true rfl rfl) (.orElse (one _ false rfl rfl)
      (.orElse (one _ true rfl rfl) (one _ false rfl rfl)))) ?_
  intro operand accepted after ends
  have known : operand ∈ [['t', 'r', 'u', 'e'], ['f', 'a', 'l', 's', 'e'], ['1'], ['0']] := by
    simpa only [Kind.accepts, List.contains_iff_mem] using accepted
  simp only [List.mem_cons, List.not_mem_nil, or_false] at known
  rcases known with rfl | rfl | rfl | rfl <;> rfl

/-- A pass takes the directives of one kind out of a text, and nothing else. -/
structure Sweeps (kind : Kind) (text left : List Char) : Prop where
  texts : Literal.texts left = Literal.texts text
  words : Literal.markedWords left = (Literal.markedWords text).filter
    (fun word => word.masked || (kind.operand? word.chars).isNone)

theorem sweeps_scan {kind : Kind} {reader : Reader α} {value : List Char → α}
    (takes : reader.TakesWords (fun word => (kind.operand? word).map value)) (text : List Char) :
    Sweeps kind text (Piece.rest (Token.scan reader text)) := by
  have inert : ∀ word, ((kind.operand? word).map value).isSome = true →
      ∀ c ∈ word, Literal.isInert c = true := by
    intro word found
    rw [Option.isSome_map] at found
    exact kind.inert found
  obtain ⟨slots, texts⟩ := Token.slots_rest_scan takes inert text
  refine ⟨texts, ?_⟩
  rw [Literal.markedWords, slots, Slot.words_clear, Literal.markedWords]
  congr 1
  funext word
  by_cases masked : word.masked = true <;> simp [MarkedWord.answer, masked]

theorem values_scan {kind : Kind} {reader : Reader α} {value : List Char → α}
    (takes : reader.TakesWords (fun word => (kind.operand? word).map value)) (text : List Char) :
    Piece.values (Token.scan reader text) = (kind.operands text).map value := by
  rw [Token.values_scan takes, Kind.operands, List.map_filterMap]

namespace Sweeps

variable {kind : Kind} {text left : List Char}

theorem openWords (sweeps : Sweeps kind text left) :
    Literal.openWords left =
      (Literal.openWords text).filter (fun word => (kind.operand? word).isNone) := by
  rw [Literal.openWords, sweeps.words, Literal.openWords, List.filter_map, List.filter_filter,
    List.filter_filter]
  congr 1
  apply List.filter_congr
  intro word _
  by_cases masked : word.masked = true <;> simp [masked]

/-- The directives of the other kinds are still there, in order. -/
theorem operands_of_ne (sweeps : Sweeps kind text left) {other : Kind} (differs : other ≠ kind) :
    other.operands left = other.operands text := by
  rw [Kind.operands, sweeps.openWords, Kind.operands, List.filterMap_filter]
  congr 1
  funext word
  cases found : kind.operand? word with
  | none => simp
  | some operand =>
    have silent : other.operand? word = none :=
      Kind.operand?_of_ne differs (by rw [found]; rfl)
    simp [silent]

end Sweeps

def isDirective (word : List Char) : Bool :=
  [Kind.limit, .offset, .sort, .reverse].any (fun kind => (kind.operand? word).isSome)

def moved (options : Options) (operands : Kind → List (List Char)) : Options :=
  { options with
    limit := firstSet options.limit ((operands .limit).map wordOf?)
    offset := firstSet options.offset ((operands .offset).map wordOf?)
    sort := match (operands .sort).map fieldOf? with
      | [] => options.sort
      | field :: _ => field
    reverse := options.reverse <|> ((operands .reverse).map turns).head? }

/-- Extracting is a pass for each kind, and what the options take is known from the text at once. -/
theorem sweeps_extract (text : List Char) (options : Options) :
    (∃ first second third, Sweeps .limit text first ∧ Sweeps .offset first second ∧
      Sweeps .sort second third ∧ Sweeps .reverse third (extract text options).1) ∧
      (extract text options).2 = moved options (fun kind => kind.operands text) := by
  have limits := sweeps_scan takes_limits text
  have offsets := sweeps_scan takes_offsets (Piece.rest (Token.scan limit text))
  have sorts := sweeps_scan takes_sorts
    (Piece.rest (Token.scan offset (Piece.rest (Token.scan limit text))))
  refine ⟨⟨_, _, _, limits, offsets, sorts, sweeps_scan takes_reversals _⟩, ?_⟩
  have offsetsOf := limits.operands_of_ne (show Kind.offset ≠ .limit by decide)
  have sortsOf := (offsets.operands_of_ne (show Kind.sort ≠ .offset by decide)).trans
    (limits.operands_of_ne (show Kind.sort ≠ .limit by decide))
  have reversalsOf := (sorts.operands_of_ne (show Kind.reverse ≠ .sort by decide)).trans
    ((offsets.operands_of_ne (show Kind.reverse ≠ .offset by decide)).trans
      (limits.operands_of_ne (show Kind.reverse ≠ .limit by decide)))
  rw [moved, ← offsetsOf, ← sortsOf, ← reversalsOf, ← values_scan takes_limits,
    ← values_scan takes_offsets, ← values_scan takes_sorts, ← values_scan takes_reversals]
  rfl

/-- What extracting leaves has the literals of the text, and its words save the directives. -/
theorem words_extract (text : List Char) (options : Options) :
    Literal.texts (extract text options).1 = Literal.texts text ∧
      Literal.markedWords (extract text options).1 =
        (Literal.markedWords text).filter (fun word => word.masked || !isDirective word.chars) := by
  obtain ⟨⟨first, second, third, limits, offsets, sorts, reversals⟩, _⟩ :=
    sweeps_extract text options
  refine ⟨?_, ?_⟩
  · rw [reversals.texts, sorts.texts, offsets.texts, limits.texts]
  · rw [reversals.words, sorts.words, offsets.words, limits.words]
    simp only [List.filter_filter]
    apply List.filter_congr
    intro word _
    by_cases masked : word.masked = true
    · simp [masked]
    · simp [masked, isDirective, Bool.and_assoc, Bool.and_comm, Bool.and_left_comm]

/-- A text without directives is left as it is, and so are the options. -/
theorem extract_of_operands_nil {text : List Char} (none : ∀ kind : Kind, kind.operands text = [])
    (options : Options) : extract text options = (text, options) := by
  have unread : ∀ {α : Type} {kind : Kind} {reader : Reader α} {value : List Char → α},
      reader.TakesWords (fun word => (kind.operand? word).map value) →
        Piece.tokens (Token.scan reader text) = [] := by
    intro α kind reader value takes
    have values := values_scan takes text
    rwa [none kind, List.map_nil, Piece.values_eq_map_tokens, List.map_eq_nil_iff] at values
  exact extract_of_tokens_nil (unread takes_limits) (unread takes_offsets) (unread takes_sorts)
    (unread takes_reversals) options

/-- Extracting takes all directives out of a text at once. What it leaves holds none outside its
literals, has the literals of the text as they were and all other words in order, and extracting
from it again changes neither the text nor the options. -/
theorem extract_removes (text : List Char) (options : Options) :
    let left := (extract text options).1
    (∀ (kind : Kind) (operand : List Char),
      kind.name ++ ':' :: operand ∈ Literal.openWords left → kind.accepts operand = false) ∧
    Literal.texts left = Literal.texts text ∧
    Literal.markedWords left =
      (Literal.markedWords text).filter (fun word => word.masked || !isDirective word.chars) ∧
    Text.words left =
      ((Literal.markedWords text).filter
        (fun word => word.masked || !isDirective word.chars)).map MarkedWord.chars ∧
    ∀ later, extract left later = (left, later) := by
  obtain ⟨texts, words⟩ := words_extract text options
  -- Every open word that is left has passed the filter.
  have others : ∀ word ∈ Literal.openWords (extract text options).1, isDirective word = false := by
    intro word member
    obtain ⟨marked, found, rfl⟩ := List.mem_map.mp member
    obtain ⟨listed, exposed⟩ := List.mem_filter.mp found
    rw [words] at listed
    rw [Bool.not_eq_true'] at exposed
    simpa [exposed] using (List.mem_filter.mp listed).2
  have unread : ∀ kind : Kind, ∀ word ∈ Literal.openWords (extract text options).1,
      kind.operand? word = none := by
    intro kind word member
    have plain := others word member
    cases kind <;> simp_all [isDirective]
  refine ⟨fun kind operand member => ?_, texts, words, ?_, ?_⟩
  · have silent := unread kind _ member
    rw [Bool.eq_false_iff]
    intro accepted
    rw [Kind.operand?_eq_some.mpr ⟨rfl, accepted⟩] at silent
    cases silent
  · rw [← words]
    exact (Literal.chars_slotsFrom _ 0 _).symm
  · apply extract_of_operands_nil
    intro kind
    exact List.filterMap_eq_nil_iff.mpr (unread kind)

/-- Into fresh options goes the first directive of each kind, save that a limit or an offset without
a number of 64 bits is passed over for the next one. The first limit or offset therefore decides
unless it has no such number and a later one has. -/
theorem extract_fresh (text : List Char) (className : String) :
    let limits := Kind.limit.operands text
    let offsets := Kind.offset.operands text
    let options := (extract text { className := className }).2
    options =
      { className := className
        limit := limits.findSome? wordOf?
        offset := offsets.findSome? wordOf?
        sort := (Kind.sort.operands text).head?.bind fieldOf?
        reverse := (Kind.reverse.operands text).head?.map turns } ∧
    (options.limit = limits.head?.bind wordOf? ↔
      (limits.head?.bind wordOf? = none → ∀ digits ∈ limits, wordOf? digits = none)) ∧
    (options.offset = offsets.head?.bind wordOf? ↔
      (offsets.head?.bind wordOf? = none → ∀ digits ∈ offsets, wordOf? digits = none)) := by
  have first : ∀ operands : List (List Char),
      operands.findSome? wordOf? = operands.head?.bind wordOf? ↔
        (operands.head?.bind wordOf? = none → ∀ digits ∈ operands, wordOf? digits = none) := by
    intro operands
    rw [← List.findSome?_eq_none_iff]
    cases operands with
    | nil => simp
    | cons digits later =>
      cases found : wordOf? digits <;> simp [found]
  have stored : (extract text { className := className }).2 =
      { className := className
        limit := (Kind.limit.operands text).findSome? wordOf?
        offset := (Kind.offset.operands text).findSome? wordOf?
        sort := (Kind.sort.operands text).head?.bind fieldOf?
        reverse := (Kind.reverse.operands text).head?.map turns } := by
    rw [(sweeps_extract text { className := className }).2]
    have sorts : ∀ names : List (List Char), (match names.map fieldOf? with
        | [] => none
        | field :: _ => field) = names.head?.bind fieldOf? := by
      intro names
      cases names <;> rfl
    simp [moved, firstSet, List.findSome?_map, sorts]
  simp only [stored, first, and_self]

/-- A limit of more than 64 bits does not keep a later one from being taken. -/
theorem extract_fresh_oversized :
    let text := "limit:99999999999999999999999 limit:5".toList
    (extract text { className := "User" }).2.limit = some 5 ∧
      (Kind.limit.operands text).head?.bind wordOf? = none := by
  refine ⟨?_, by decide +kernel⟩
  rw [(extract_fresh _ _).1]
  decide +kernel

end Directive

end SelectorLang
