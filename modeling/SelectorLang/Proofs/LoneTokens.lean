import SelectorLang.Proofs.BoundedPatterns
import SelectorLang.Proofs.Embedding
import SelectorLang.Proofs.Remainders

set_option autoImplicit false

namespace SelectorLang

theorem Piece.rest_of_tokens_nil {α : Type} {pieces : List (Piece α)} (none : tokens pieces = []) :
    rest pieces = pieces.flatMap source := by
  induction pieces with
  | nil => rfl
  | cons piece pieces ih =>
    cases piece with
    | other c =>
      rw [rest, ih none]
      rfl
    | token lexeme value => cases none

theorem Reader.exactly_of_not_mem {word rest : List Char} {c : Char} (member : c ∈ word)
    (absent : c ∉ rest) : exactly word rest = none := by
  apply exactly_of_mismatch
  rw [Bool.eq_false_iff, ne_eq, List.isPrefixOf_iff_prefix]
  rintro ⟨behind, rfl⟩
  exact absent (List.mem_append_left behind member)

/-- What a later reader needs is not found behind what an earlier one takes. -/
theorem Reader.needs_bind {α β : Type} {sign : Char} {reader : Reader α} {next : α → Reader β}
    (takes : TakesFront reader) (needs : ∀ value rest, sign ∉ rest → next value rest = none)
    (rest : List Char) (absent : sign ∉ rest) : (reader >>= next) rest = none := by
  cases found : reader rest with
  | none => exact bind_of_none next found
  | some read =>
    obtain ⟨lexeme, rfl, _⟩ := takes rest read.1 read.2 found
    rw [bind_of_some next found]
    exact needs read.1 read.2 (fun member => absent (List.mem_append_right lexeme member))

/-- The literal at the end of a text is its only one if none is in front. -/
theorem Literal.spans_of_literal {front literal : List Char} {operator : Char}
    (silent : Silent front (operator :: literal))
    (reads : operand (operator :: literal) = some ((), [])) :
    spans (front ++ operator :: literal) =
      [⟨front.length + 1, (front ++ operator :: literal).length⟩] := by
  rw [← List.append_nil literal] at silent reads
  have found := spansFrom_ended silent rfl reads 0
  rw [List.append_nil] at found
  rw [spans, found]
  simp only [List.take_nil, List.append_nil, spansFrom, List.length_append, List.length_cons,
    List.cons.injEq, Span.mk.injEq, and_true]
  omega

namespace Token

variable {α : Type} {reader : Reader α}

/-- Somewhere in the text a token is read: where a word begins and no literal stands around. -/
def Occurs (reader : Reader α) (text : List Char) : Prop :=
  ∃ before rest, text = before ++ rest ∧ Text.Breaks before ∧
    (Literal.spans text).any (fun literal => literal.strictlyInside before.length) = false ∧
    readAt reader rest ≠ none

theorem scanFrom_of_not_occurs {before rest : List Char} {start : Bool}
    (absent : ¬Occurs reader (before ++ rest)) (breaks : start = true → Text.Breaks before) :
    scanFrom reader (Literal.spans (before ++ rest)) 0 before.length start rest =
      rest.map .other := by
  induction rest generalizing before start with
  | nil => rfl
  | cons c rest ih =>
    have unread : (start && !(Literal.spans (before ++ c :: rest)).any
        (fun literal => literal.strictlyInside before.length)) = false ∨
          readAt reader (c :: rest) = none := by
      by_cases ready : (start && !(Literal.spans (before ++ c :: rest)).any
          (fun literal => literal.strictlyInside before.length)) = true
      · right
        rw [Bool.and_eq_true, Bool.not_eq_true'] at ready
        by_cases read : readAt reader (c :: rest) = none
        · exact read
        · exact absurd ⟨before, c :: rest, rfl, breaks ready.1, ready.2, read⟩ absent
      · exact Or.inl (Bool.eq_false_iff.mpr ready)
    have parts : before ++ c :: rest = (before ++ [c]) ++ rest := by simp
    have width : (before ++ [c]).length = before.length + 1 := by simp
    rw [scanFrom_other unread, List.map_cons, ← width]
    rw [parts] at absent ⊢
    rw [ih absent (fun blank => Or.inr ⟨before, c, rfl, blank⟩)]

theorem scan_of_not_occurs {text : List Char} (absent : ¬Occurs reader text) :
    scan reader text = text.map .other :=
  @scanFrom_of_not_occurs _ reader [] text true absent (fun _ => Or.inl rfl)

theorem tokens_of_not_occurs {text : List Char} (absent : ¬Occurs reader text) :
    Piece.tokens (scan reader text) = [] := by
  have found := Slot.tokens_others text ([] : List (Piece α))
  rw [List.append_nil] at found
  rw [scan_of_not_occurs absent, found]
  rfl

theorem rest_of_tokens_nil {text : List Char} (none : Piece.tokens (scan reader text) = []) :
    Piece.rest (scan reader text) = text := by
  rw [Piece.rest_of_tokens_nil none, source_scan]

/-- In a text that begins with a word a token is read at the front or behind the word. -/
theorem occurs_behind {front back : List Char} (dark : ∀ c ∈ front, isBlank c = false)
    (occurs : Occurs reader (front ++ back)) :
    readAt reader (front ++ back) ≠ none ∨ ∃ more rest, back = more ++ rest ∧ more ≠ [] ∧
      (Literal.spans (front ++ back)).any
        (fun literal => literal.strictlyInside (front.length + more.length)) = false ∧
      readAt reader rest ≠ none := by
  obtain ⟨before, rest, parts, breaks, outside, read⟩ := occurs
  rcases breaks with rfl | ⟨words, c, rfl, blank⟩
  · left
    rwa [parts]
  · right
    -- The blank in front of the place is none of the word's characters.
    rcases List.append_eq_append_iff.mp parts with ⟨more, place, behind⟩ | ⟨more, word, _⟩
    · have nonempty : more ≠ [] := by
        rintro rfl
        rw [List.append_nil] at place
        have member : c ∈ front := place ▸ List.mem_append_right words (List.mem_singleton_self c)
        rw [dark c member] at blank
        cases blank
      refine ⟨more, rest, behind, nonempty, ?_, read⟩
      rwa [place, List.length_append] at outside
    · have member : c ∈ front := by
        rw [word]
        exact List.mem_append_left _ (List.mem_append_right words (List.mem_singleton_self c))
      rw [dark c member] at blank
      cases blank

/-- In a text of one word nothing is read behind its front. -/
theorem not_occurs_of_front {text : List Char} (dark : ∀ c ∈ text, isBlank c = false)
    (unread : readAt reader text = none) : ¬Occurs reader text := by
  intro occurs
  rw [← List.append_nil text] at occurs
  rcases occurs_behind dark occurs with front | ⟨more, rest, behind, later, _⟩
  · rw [List.append_nil] at front
    exact front unread
  · exact later (List.append_eq_nil_iff.mp behind.symm).1

/-- In a text of one word that is refused at its front nothing is read. -/
theorem not_occurs_of_word {text : List Char} (dark : ∀ c ∈ text, isBlank c = false)
    (refuses : reader text = none) : ¬Occurs reader text :=
  not_occurs_of_front dark (readAt_of_none refuses)

/-- In a text that ends in a literal, with a word in front of it, nothing is read behind its front:
only at the end of the text the literal stands around no more. -/
theorem not_occurs_of_literal {front literal : List Char} {operator : Char}
    (dark : ∀ c ∈ front ++ [operator], isBlank c = false)
    (silent : Literal.Silent front (operator :: literal))
    (reads : Literal.operand (operator :: literal) = some ((), []))
    (unread : readAt reader (front ++ operator :: literal) = none) :
    ¬Occurs reader (front ++ operator :: literal) := by
  intro occurs
  have parts : front ++ operator :: literal = (front ++ [operator]) ++ literal := by simp
  rw [parts] at occurs
  rcases occurs_behind dark occurs with first | ⟨more, rest, behind, later, outside, read⟩
  · rw [← parts] at first
    exact first unread
  · rw [← parts, Literal.spans_of_literal silent reads] at outside
    have past : rest = [] := by
      have size := congrArg List.length behind
      have positive := List.length_pos_iff.mpr later
      simp only [List.any_cons, List.any_nil, Bool.or_false, Span.strictlyInside,
        Bool.and_eq_false_iff, decide_eq_false_iff_not, List.length_append, List.length_cons,
        List.length_nil] at outside size
      apply List.eq_nil_of_length_eq_zero
      omega
    rw [past] at read
    exact read (readAt_nil reader)

/-- What needs a character is not read in a text without it. -/
theorem not_occurs_of_not_mem {sign : Char} (needs : ∀ rest, sign ∉ rest → reader rest = none)
    {text : List Char} (absent : sign ∉ text) : ¬Occurs reader text := by
  rintro ⟨before, rest, rfl, _, _, read⟩
  exact read
    (readAt_of_none (needs rest (fun member => absent (List.mem_append_right before member))))

end Token

/-- A field and a sign are the front of a word. -/
theorem Phrase.dark_lead (field : FieldName) (negated : Bool) {sign : Char}
    (dark : isBlank sign = false) :
    ∀ c ∈ field.chars ++ Clause.mark negated ++ [sign], isBlank c = false :=
  List.forall_mem_append.mpr
    ⟨forall_lead field negated (fun _ => isBlank_of_isFieldChar) rfl,
      List.forall_mem_singleton.mpr dark⟩

theorem Clause.unread_sign {α : Type} (field : FieldName) (negated : Bool) {sign : List Char}
    {c : Char} {rest : List Char} (outside : isFieldChar c = false) (unmarked : c ≠ '!')
    (other : sign.isPrefixOf (c :: rest) = false) (next : String × Bool → Unit → Reader α) :
    (target >>= fun subject => Reader.exactly sign >>= next subject)
      (field.chars ++ mark negated ++ c :: rest) = none := by
  rw [Reader.bind_of_some _ (target_append field negated outside unmarked rest)]
  exact Reader.bind_of_none _ (Reader.exactly_of_mismatch other)

/-- An operand without quotes is the rest of its word. -/
theorem Clause.plainOperand_of_dark (starts : Char → Bool) {c : Char} {others : List Char}
    (first : starts c = true) (unquoted : c ≠ '"') (dark : ∀ d ∈ c :: others, isBlank d = false) :
    plainOperand starts (c :: others) = some (c :: others, []) := by
  obtain ⟨own, later⟩ := List.forall_mem_cons.mp dark
  have accepted : (!isBlank c && c != '"' && starts c) = true := by
    simp only [own, first, bne_iff_ne.mpr unquoted, Bool.not_false, Bool.and_self]
  have shown : others.all (fun d => !isBlank d) = true :=
    List.all_eq_true.mpr (fun d member => by rw [later d member]; rfl)
  have read := Reader.run_append shown (Reader.stops_nil (fun d => !isBlank d))
  rw [List.append_nil] at read
  rw [plainOperand, Reader.bind_of_some _ (Reader.satisfy_cons accepted others),
    Reader.bind_of_some _ read]
  rfl

namespace Directive

structure Free (text : List Char) : Prop where
  limit : ¬Token.Occurs limit text
  offset : ¬Token.Occurs offset text
  sort : ¬Token.Occurs sort text
  reverse : ¬Token.Occurs reverse text

theorem extract_of_tokens_nil {text : List Char}
    (limits : Piece.tokens (Token.scan limit text) = [])
    (offsets : Piece.tokens (Token.scan offset text) = [])
    (sorts : Piece.tokens (Token.scan sort text) = [])
    (reversals : Piece.tokens (Token.scan reverse text) = []) (options : Options) :
    extract text options = (text, options) := by
  simp only [extract, Piece.values_eq_map_tokens, Token.rest_of_tokens_nil limits,
    Token.rest_of_tokens_nil offsets, Token.rest_of_tokens_nil sorts,
    Token.rest_of_tokens_nil reversals, limits, offsets, sorts, reversals, List.map_nil]
  simp [firstSet]

theorem extract_of_free {text : List Char} (free : Free text) (className : String) :
    extract text { className := className } = (text, { className := className }) :=
  extract_of_tokens_nil (Token.tokens_of_not_occurs free.limit)
    (Token.tokens_of_not_occurs free.offset) (Token.tokens_of_not_occurs free.sort)
    (Token.tokens_of_not_occurs free.reverse) _

theorem free_of_colon {text : List Char}
    (absent : ∀ {α : Type} (word : List Char), word.all isFieldChar = true →
      ∀ next : Unit → Reader α, ¬Token.Occurs (Reader.exactly (word ++ [':']) >>= next) text) :
    Free text where
  limit := absent ['l', 'i', 'm', 'i', 't'] rfl _
  offset := absent ['o', 'f', 'f', 's', 'e', 't'] rfl _
  sort := absent ['s', 'o', 'r', 't'] rfl _
  reverse := absent ['r', 'e', 'v', 'e', 'r', 's', 'e'] rfl _

theorem needs_colon {α : Type} (word : List Char) (next : Unit → Reader α) (rest : List Char)
    (absent : ':' ∉ rest) : (Reader.exactly (word ++ [':']) >>= next) rest = none := by
  have last : ':' ∈ word ++ [':'] := List.mem_append_right word (List.mem_singleton_self ':')
  exact Reader.bind_of_none _ (Reader.exactly_of_not_mem last absent)

theorem free_of_word (field : FieldName) (negated : Bool) {c : Char} {rest : List Char}
    (outside : isFieldChar c = false) (other : (c == ':') = false)
    (dark : ∀ d ∈ field.chars ++ Clause.mark negated ++ c :: rest, isBlank d = false) :
    Free (field.chars ++ Clause.mark negated ++ c :: rest) :=
  free_of_colon (fun _ wellFormed next =>
    Token.not_occurs_of_word dark (unread_behind field negated wellFormed next outside other rest))

end Directive

namespace Pass

variable {pass : Pass} {text : List Char}

theorem untouched_of_tokens_nil (none : Piece.tokens (pass.pieces text) = []) :
    pass.rest text = text ∧ pass.claims text = [] := by
  refine ⟨Token.rest_of_tokens_nil none, ?_⟩
  rw [claims, none, List.map_nil]

/-- A pass that reads a whole text leaves a blank. -/
theorem whole_of_read (nonempty : text ≠ []) {said : Option Clause}
    (read : pass.reader text = some (said, [])) :
    pass.rest text = [' '] ∧
      pass.claims text = [⟨pass.stage, pass.place, text, said⟩] := by
  obtain ⟨c, others, rfl⟩ := List.exists_cons_of_ne_nil nonempty
  have outside := Token.any_strictlyInside_zero (Literal.spans (c :: others))
  have ready : (true && !(Literal.spans (c :: others)).any
      (fun literal => literal.strictlyInside 0)) = true := by
    rw [outside]
    rfl
  have found : Token.readAt pass.reader (c :: (others ++ [])) = some (others.length + 1, said) := by
    rw [List.append_nil]
    unfold Token.readAt
    rw [read]
    simp [Token.endsWord]
  have scanned := Token.scanFrom_taken ready found
  rw [List.append_nil] at scanned
  have pieces : Token.scan pass.reader (c :: others) = [.token (c :: others) said] := by
    unfold Token.scan
    rw [scanned, Token.scanFrom]
  unfold rest claims Pass.pieces
  rw [pieces]
  exact ⟨rfl, rfl⟩

/-- Passes that find nothing, one that reads the whole text, and others behind it. -/
theorem all_of_read {early late : List Pass}
    (absent : ∀ other ∈ early, Piece.tokens (other.pieces text) = []) (nonempty : text ≠ [])
    {said : Option Clause} (read : pass.reader text = some (said, []))
    (dark : ∀ other ∈ late, other.reader.Dark) :
    restAll (early ++ pass :: late) text = [' '] ∧
      (claimsAll (early ++ pass :: late) text).filterMap Claim.clause = said.toList := by
  obtain ⟨earlyRest, earlyClaims⟩ :=
    all_of_untouched (fun other member => untouched_of_tokens_nil (absent other member))
  obtain ⟨own, claimed⟩ := whole_of_read nonempty read
  have space : [' '].all isBlank = true := rfl
  obtain ⟨lateRest, lateClaims⟩ := all_blank dark space
  rw [restAll_append, claimsAll_append, earlyRest, earlyClaims, restAll_cons, claimsAll, own,
    claimed, lateRest, lateClaims]
  cases said <;> exact ⟨rfl, rfl⟩

end Pass

/-- If what stands around the groups of a text is one token, the query has the groups and what the
token says. -/
theorem Compiler.compile_of_read (compiler : Compiler) (cls : EntityClass) {text : List Char}
    {early late : List Pass} {pass : Pass}
    (order : Stage.placed (Stage.all (compiler.embed
      (compiler.innerAt Selector.simplify compiler.maxDepth cls))) = early ++ pass :: late)
    (free : Directive.extract (split text).remainder { className := cls.name } =
      ((split text).remainder, { className := cls.name }))
    (absent : ∀ other ∈ early, Piece.tokens (other.pieces (split text).remainder) = [])
    (nonempty : (split text).remainder ≠ []) {said : Option Clause}
    (read : pass.reader (split text).remainder = some (said, [])) :
    compiler.compile (String.ofList text) cls =
      ⟨{ className := cls.name },
        [((({ kind := .allOf } : Selector).nest ((split text).groups.filterMap
          (compiler.innerAt Selector.simplify compiler.maxDepth cls).group)).addAll
            said.toList).simplify]⟩ := by
  have dark : ∀ other ∈ late, other.reader.Dark := by
    intro other member
    apply Stage.dark_of_mem
    rw [order]
    exact List.mem_append_right early (List.mem_cons_of_mem pass member)
  obtain ⟨left, clauses⟩ := Pass.all_of_read absent nonempty read dark
  have silent : compiler.bareSelector cls [' '] = none :=
    compiler.bareSelector_of_words cls (Text.words_eq_nil rfl)
  simp only [compile, queryAt, queryWith, fill, String.toList_ofList, free, Stage.runAll_eq, order,
    left, clauses, silent, Option.isSome_none, Bool.and_false,
    Bool.false_eq_true, ↓reduceIte, Option.toList_none, List.append_nil]

/-- A text without groups and directives that one pass reads compiles to what the pass says. -/
theorem Compiler.compile_of_whole (compiler : Compiler) (cls : EntityClass) {text : List Char}
    (groupless : (split text).groups = [])
    (free : Directive.extract text { className := cls.name } = (text, { className := cls.name }))
    (nonempty : text ≠ []) {early late : List Pass} {pass : Pass}
    (order : Stage.placed (Stage.all (compiler.embed
      (compiler.innerAt Selector.simplify compiler.maxDepth cls))) = early ++ pass :: late)
    (absent : ∀ other ∈ early, Piece.tokens (other.pieces text) = []) {said : Option Clause}
    (read : pass.reader text = some (said, [])) :
    compiler.compile (String.ofList text) cls =
      ⟨{ className := cls.name }, [({ kind := .allOf } : Selector).addAll said.toList]⟩ := by
  have whole := (remainder_eq_iff text).mpr groupless
  rw [← whole] at free absent nonempty read
  rw [compiler.compile_of_read cls order free absent nonempty read, groupless, List.filterMap_nil,
    Selector.nest_nil]
  congr 2
  apply Selector.simplify_of_childless
  rw [Selector.nested_addAll]

end SelectorLang
