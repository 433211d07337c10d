import SelectorLang.Proofs.LeadingBlanks
import SelectorLang.Proofs.Words

set_option autoImplicit false

namespace SelectorLang

theorem isWordChar_of_blank {c : Char} (blank : isBlank c = true) : isWordChar c = false := by
  have outside := isFieldChar_of_blank blank
  simp only [isFieldChar, Bool.or_eq_false_iff] at outside
  exact outside.1.1.1

theorem isHexDigit_of_blank {c : Char} (blank : isBlank c = true) : isHexDigit c = false := by
  have codes : ∀ code ∈ blankCodes, isHexDigit (Char.ofNat code) = false := by decide +kernel
  exact blank_induction (fun c => isHexDigit c = false) codes blank

namespace Reader

variable {β : Type} {c : Char}

theorem frames_exactly {word : List Char} (absent : c ∉ word) :
    Frames [c] (exactly word) := by
  intro text
  by_cases front : word <+: text
  · obtain ⟨rest, rfl⟩ := front
    rw [List.append_assoc, exactly_append, exactly_append]
    rfl
  · have refused : exactly word text = none := by
      apply exactly_of_mismatch
      rw [Bool.eq_false_iff, ne_eq, List.isPrefixOf_iff_prefix]
      exact front
    rw [refused]
    apply exactly_of_mismatch
    rw [Bool.eq_false_iff, ne_eq, List.isPrefixOf_iff_prefix, List.prefix_concat_iff]
    rintro (whole | shorter)
    · apply absent
      rw [whole]
      exact List.mem_append_right text (List.mem_singleton_self c)
    · exact front shorter

/-- A run up to a delimiter may go on over the character; but then the delimiter is missing, with
the character and without it. -/
theorem go_append_char (closes : Char → Bool) {closing : Char} (unescaped : closing ≠ '\\')
    (text : List Char) (c : Char) :
    escapedRun.go closes (text ++ [c]) =
        ((escapedRun.go closes text).1, (escapedRun.go closes text).2 ++ [c]) ∨
      Stops (· == closing) (escapedRun.go closes text).2 ∧
        Stops (· == closing) (escapedRun.go closes (text ++ [c])).2 := by
  fun_induction escapedRun.go closes text with
  | case1 =>
    simp only [List.nil_append, escapedRun.go]
    split
    · exact Or.inl rfl
    · exact Or.inr ⟨stops_nil _, stops_nil _⟩
  | case2 d stops =>
    by_cases backslash : d = '\\'
    · subst backslash
      simp only [List.singleton_append, escapedRun.go, BEq.rfl, ↓reduceIte]
      split
      · exact Or.inl rfl
      · exact Or.inr ⟨stops_cons_ne unescaped.symm [], stops_nil _⟩
    · have closing : closes d = true := by simpa [backslash] using stops
      exact Or.inl (go_closing backslash closing [c])
  | case3 d plain =>
    rw [Bool.not_eq_true, Bool.or_eq_false_iff] at plain
    simp only [List.singleton_append, escapedRun.go, plain, Bool.false_eq_true, ↓reduceIte]
    split
    · exact Or.inl rfl
    · exact Or.inr ⟨stops_nil _, stops_nil _⟩
  | case4 d next rest backslash feed =>
    left
    simp only [List.cons_append, escapedRun.go, backslash, feed, ↓reduceIte]
  | case5 d next rest backslash other body after result ih =>
    rw [Bool.not_eq_true] at other
    simp only [List.cons_append, escapedRun.go, backslash, other, Bool.false_eq_true, ↓reduceIte,
      result] at ih ⊢
    rcases ih with same | ends
    · left
      rw [same]
    · exact Or.inr ends
  | case6 d next rest plain closing =>
    exact Or.inl (go_closing (by simpa using plain) closing _)
  | case7 d next rest plain inside body after result ih =>
    rw [Bool.not_eq_true] at plain inside
    simp only [List.cons_append, escapedRun.go, plain, inside, Bool.false_eq_true, ↓reduceIte,
      result] at ih ⊢
    rcases ih with same | ends
    · left
      rw [same]
    · exact Or.inr ends

theorem frames_escapedRun {closes : Char → Bool} {closing : Char} (unescaped : closing ≠ '\\')
    {next : List Char → Reader β} (behind : ∀ body, Frames [c] (next body))
    (needs : ∀ body text, Stops (· == closing) text → next body text = none) :
    Frames [c] (escapedRun closes >>= next) := by
  intro text
  simp only [bind_apply, escapedRun, Option.bind_some]
  rcases go_append_char closes unescaped text c with same | ⟨without, with'⟩
  · rw [same]
    exact behind _ _
  · rw [needs _ _ without, needs _ _ with']
    rfl

theorem frames_escapedRun1 {closes : Char → Bool} {closing : Char} (unescaped : closing ≠ '\\')
    {next : List Char → Reader β} (behind : ∀ body, Frames [c] (next body))
    (needs : ∀ body text, Stops (· == closing) text → next body text = none) :
    Frames [c] (escapedRun1 closes >>= next) := by
  have parts : escapedRun1 closes >>= next = escapedRun closes >>= fun body =>
      if body.isEmpty then failure else next body := by
    rw [escapedRun1, bind_assoc]
    congr 1
    funext body
    split <;> rfl
  rw [parts]
  apply frames_escapedRun unescaped
  · intro body
    split
    · exact frames_failure
    · exact behind body
  · intro body text stops
    split
    · rfl
    · exact needs body text stops

end Reader

section Blank

open Reader

variable {c : Char} (blank : isBlank c = true)

include blank

namespace Reader

theorem frames_word {word : List Char} (dark : word.all (fun d => !isBlank d) = true) :
    Frames [c] (exactly word) :=
  frames_exactly (not_mem_of_all dark (by rw [blank]; rfl))

theorem frames_mark {mark : Char} (dark : isBlank mark = false) : Frames [c] (flag mark) :=
  frames_flag (stops_cons_ne (ne_of_accepted blank dark) [])

theorem frames_quoted : Frames [c] quoted :=
  (frames_word blank rfl).bind (fun _ => frames_escapedRun (by decide)
    (fun _ => (frames_word blank rfl).bind (fun _ => frames_pure _))
    (fun _ _ stops => bind_of_none _ (exactly_of_stops stops)))

theorem frames_quoted1 : Frames [c] quoted1 := by
  refine (frames_quoted blank).bind (fun body => ?_)
  split
  · exact frames_failure
  · exact frames_pure body

theorem frames_slashed : Frames [c] slashed :=
  (frames_word blank rfl).bind (fun _ => frames_escapedRun1 (by decide)
    (fun _ => (frames_word blank rfl).bind (fun _ => frames_pure _))
    (fun _ _ stops => bind_of_none _ (exactly_of_stops stops)))

end Reader

namespace Directive

theorem frames_limit : Frames [c] limit :=
  (frames_word blank rfl).bind (fun _ =>
    (frames_run1 (stops_cons (isDecimalDigit_of_blank blank) [])).bind (fun _ => frames_pure _))

theorem frames_offset : Frames [c] offset :=
  (frames_word blank rfl).bind (fun _ =>
    (frames_run1 (stops_cons (isDecimalDigit_of_blank blank) [])).bind (fun _ => frames_pure _))

theorem frames_sort : Frames [c] sort :=
  (frames_word blank rfl).bind (fun _ =>
    (frames_run1 (stops_cons (isWordChar_of_blank blank) [])).bind (fun _ => frames_pure _))

theorem frames_reverse : Frames [c] reverse := by
  have named : ∀ {word : List Char} (value : Bool), word.all (fun d => !isBlank d) = true →
      Frames [c] (do exactly word; pure value) :=
    fun value dark => (frames_word blank dark).bind (fun _ => frames_pure value)
  exact (frames_word blank rfl).bind (fun _ => (named true rfl).orElse
    ((named false rfl).orElse ((named true rfl).orElse (named false rfl))))

end Directive

namespace Clause

theorem frames_target : Frames [c] target :=
  (frames_run1 (stops_cons (isFieldChar_of_blank blank) [])).bind (fun _ =>
    (frames_mark blank rfl).bind (fun _ => frames_pure _))

theorem frames_plainOperand (starts : Char → Bool) : Frames [c] (plainOperand starts) :=
  (frames_satisfy (stops_cons (by rw [blank]; rfl) [])).bind (fun _ =>
    (frames_run (stops_cons (by rw [blank]; rfl) [])).bind (fun _ => frames_pure _))

theorem frames_identifier : Frames [c] identifier := by
  refine (frames_run (stops_cons (isHexDigit_of_blank blank) [])).bind (fun digits => ?_)
  split
  · exact frames_pure _
  · exact frames_failure

theorem frames_subquery (embed : List Char → List Char → Option Query) :
    Frames [c] (subquery embed) := by
  refine (frames_target blank).bind (fun subject => (frames_word blank rfl).bind
    (fun _ => frames_escapedRun1 (by decide) (fun body => (frames_word blank rfl).bind
      (fun _ => ?_)) (fun _ _ stops => bind_of_none _ (exactly_of_stops stops))))
  split
  · exact frames_failure
  · exact frames_pure _

theorem frames_equal : Frames [c] equal :=
  (frames_target blank).bind (fun _ => (frames_word blank rfl).bind (fun _ =>
    (((frames_quoted blank).bind (fun _ => frames_pure _)).orElse
      ((frames_plainOperand blank _).bind (fun _ => frames_pure _))).bind
        (fun _ => frames_pure _)))

theorem frames_reference : Frames [c] reference :=
  (frames_target blank).bind (fun _ => (frames_word blank rfl).bind (fun _ =>
    (frames_identifier blank).bind (fun _ => (frames_word blank rfl).bind
      (fun _ => frames_pure _))))

theorem frames_contain : Frames [c] contain :=
  (frames_target blank).bind (fun _ => (frames_word blank rfl).bind (fun _ =>
    frames_escapedRun1 (by decide) (fun _ => (frames_word blank rfl).bind
      (fun _ => frames_pure _)) (fun _ _ stops => bind_of_none _ (exactly_of_stops stops))))

theorem frames_regex : Frames [c] regex :=
  (frames_target blank).bind (fun _ => (frames_word blank rfl).bind (fun _ =>
    (frames_slashed blank).bind (fun _ => (frames_mark blank rfl).bind
      (fun _ => frames_pure _))))

theorem frames_like : Frames [c] like :=
  (frames_target blank).bind (fun _ => (frames_word blank rfl).bind (fun _ =>
    ((frames_quoted blank).bind (fun _ => (frames_mark blank rfl).bind
      (fun _ => frames_pure _))).orElse
        ((frames_plainOperand blank _).bind (fun _ => frames_pure _))))

theorem frames_guid : Frames [c] guid :=
  (frames_word blank rfl).bind (fun _ => (frames_mark blank rfl).bind (fun _ =>
    (frames_identifier blank).bind (fun _ => (frames_word blank rfl).bind
      (fun _ => frames_pure _))))

theorem frames_truthy : Frames [c] truthy :=
  (frames_word blank rfl).bind (fun _ => (frames_mark blank rfl).bind (fun _ =>
    (frames_run1 (stops_cons (isFieldChar_of_blank blank) [])).bind (fun _ =>
      (frames_word blank rfl).bind (fun _ => frames_pure _))))

theorem frames_tag : Frames [c] tag :=
  (frames_word blank rfl).bind (fun _ => (frames_mark blank rfl).bind (fun _ =>
    (frames_satisfy (stops_cons (by simp [blank]) [])).bind (fun _ =>
      (frames_run (stops_cons (by simp [blank]) [])).bind (fun _ => (frames_word blank rfl).bind
        (fun _ => frames_pure _)))))

theorem frames_numeral : Frames [c] numeral := by
  have digits := frames_run1 (stops_cons (isDecimalDigit_of_blank blank) [])
  refine (frames_mark blank rfl).bind (fun _ => digits.bind (fun _ =>
    (frames_mark blank rfl).bind (fun pointed => ?_)))
  cases pointed with
  | false => exact (frames_pure none).bind (fun _ => frames_pure _)
  | true => exact (digits.map some).bind (fun _ => frames_pure _)

theorem frames_sign (relation : Relation) : Frames [c] (exactly relation.sign) := by
  cases relation <;> exact frames_word blank rfl

theorem frames_absolute (relation : Relation) : Frames [c] (absolute relation) :=
  (frames_target blank).bind (fun _ => (frames_sign blank relation).bind (fun _ =>
    (frames_numeral blank).bind (fun _ => frames_pure _)))

theorem frames_relative (relation : Relation) : Frames [c] (relative relation) :=
  (frames_target blank).bind (fun _ => (frames_sign blank relation).bind (fun _ =>
    (((frames_quoted1 blank).bind (fun _ => frames_pure _)).orElse
      ((frames_plainOperand blank _).bind (fun _ => frames_pure _))).bind
        (fun _ => frames_pure _)))

end Clause

/-- No pass takes a blank behind the text. -/
theorem Stage.frames_of_mem {embed : List Char → List Char → Option Query} :
    ∀ pass ∈ placed (all embed), Frames [c] pass.reader :=
  forall_placed (Clause.frames_subquery blank embed) (Clause.frames_equal blank)
    (Clause.frames_reference blank) (Clause.frames_contain blank)
    (Clause.frames_regex blank) (Clause.frames_like blank)
    (Clause.frames_guid blank) (Clause.frames_truthy blank)
    (Clause.frames_tag blank) (Clause.frames_absolute blank)
    (Clause.frames_relative blank)

end Blank

namespace Literal

open Reader

variable {c : Char}

/-- What a reader that may take the character behind a text answers for the text without it and with
it. -/
inductive Follows (c : Char) : Option (Unit × List Char) → Option (Unit × List Char) → Prop
  | refused : Follows c none none
  | behind (rest : List Char) : Follows c (some ((), rest)) (some ((), rest ++ [c]))
  | taken : Follows c (some ((), [])) (some ((), []))

theorem Follows.or {first second others more : Option (Unit × List Char)}
    (left : Follows c first second) (right : Follows c others more) :
    Follows c (first.or others) (second.or more) := by
  cases left with
  | refused => exact right
  | behind rest => exact .behind rest
  | taken => exact .taken

theorem follows_bind {α : Type} {reader : Reader α} {next : α → Reader Unit}
    (leaves : Frames [c] reader)
    (follows : ∀ value text, Follows c (next value text) (next value (text ++ [c])))
    (text : List Char) : Follows c ((reader >>= next) text) ((reader >>= next) (text ++ [c])) := by
  rw [bind_apply, bind_apply, leaves text]
  cases reader text with
  | none => exact .refused
  | some found => exact follows found.1 found.2

variable (blank : isBlank c = true)

include blank

theorem follows_wordEnd (text : List Char) : Follows c (wordEnd text) (wordEnd (text ++ [c])) := by
  cases text with
  | nil =>
    simp only [List.nil_append, wordEnd, blank, ↓reduceIte]
    exact .taken
  | cons first rest =>
    simp only [List.cons_append, wordEnd]
    split
    · exact .behind rest
    · exact .refused

theorem follows_operand (text : List Char) : Follows c (operand text) (operand (text ++ [c])) := by
  have sign : (c == '=' || c == '~' || c == '<' || c == '>') = false := isOperator_of_blank blank
  refine follows_bind (frames_satisfy (stops_cons sign [])) (fun operator text => ?_) text
  rw [orElse_apply, orElse_apply]
  apply Follows.or
  · refine follows_bind (frames_quoted blank) (fun _ => ?_) text
    refine follows_bind (frames_mark blank rfl) (fun folds => ?_)
    cases folds with
    | false => exact follows_bind (frames_mark blank rfl) (fun _ => follows_wordEnd blank)
    | true => exact follows_bind (frames_pure ()) (fun _ => follows_wordEnd blank)
  · split
    · exact follows_bind (frames_slashed blank) (fun _ =>
        follows_bind (frames_mark blank rfl) (fun _ => follows_wordEnd blank)) text
    · exact .refused

/-- In a text the same places stand in a literal with a blank behind the text and without it. -/
theorem surrounds_append_blank {place : Nat} (skip offset : Nat) {text : List Char}
    (inside : place < offset + text.length) :
    surrounds (spansFrom skip offset (text ++ [c])) place =
      surrounds (spansFrom skip offset text) place := by
  induction text generalizing skip offset with
  | nil =>
    cases skip with
    | zero =>
      rw [List.nil_append, spansFrom_blank blank]
      rfl
    | succ skip => cases skip <;> rfl
  | cons first rest ih =>
    rw [List.length_cons] at inside
    have behind := fun skip => ih skip (offset + 1) (by omega)
    cases skip with
    | succ skip => exact behind skip
    | zero =>
      have follows := follows_operand blank (first :: rest)
      rw [List.cons_append] at follows ⊢
      rw [spansFrom, spansFrom]
      generalize operand (first :: (rest ++ [c])) = longer at follows
      generalize operand (first :: rest) = found at follows
      cases follows with
      | refused => exact behind 0
      | behind after =>
        have same : (rest ++ [c]).length - (after ++ [c]).length = rest.length - after.length := by
          simp only [List.length_append, List.length_singleton]
          omega
        simp only [same, surrounds, List.any_cons]
        exact congrArg _ (behind _)
      | taken =>
        -- The last literal ends behind the place either way.
        have longer := spansFrom_skip (rest ++ [c]) [] (offset + 1)
        have shorter := spansFrom_skip rest [] (offset + 1)
        rw [List.append_nil, List.length_append, List.length_singleton] at longer
        rw [List.append_nil] at shorter
        simp only [List.length_nil, Nat.sub_zero, longer, shorter, spansFrom, surrounds,
          List.any_cons, List.any_nil, Bool.or_false, Span.strictlyInside, List.length_append,
          List.length_singleton]
        congr 1
        rw [decide_eq_decide]
        omega

end Literal

section Blank

open Reader

variable {c : Char} (blank : isBlank c = true)

include blank

namespace Token

variable {α : Type} {reader : Reader α} (leaves : Frames [c] reader)

include leaves

theorem readAt_append_blank (text : List Char) :
    readAt reader (text ++ [c]) = readAt reader text := by
  simp only [readAt, leaves text]
  cases reader text with
  | none => rfl
  | some found =>
    have length : (text ++ [c]).length - (found.2 ++ [c]).length =
        text.length - found.2.length := by
      simp only [List.length_append, List.length_singleton]
      omega
    have room : text.length - found.2.length ≤ text.length := Nat.sub_le _ _
    have ends : endsWord (text.drop (text.length - found.2.length) ++ [c]) =
        endsWord (text.drop (text.length - found.2.length)) := by
      cases text.drop (text.length - found.2.length) with
      | nil => exact blank
      | cons d rest => rfl
    simp only [Option.map_some, length, List.drop_append_of_le_length room, ends]

theorem scanFrom_append_blank {literals others : List Span} {skip offset : Nat} {start : Bool}
    {text : List Char} (room : skip ≤ text.length)
    (same : ∀ place, place < offset + text.length →
      Literal.surrounds others place = Literal.surrounds literals place) :
    scanFrom reader others skip offset start (text ++ [c]) =
      scanFrom reader literals skip offset start text ++ [.other c] := by
  induction text generalizing skip offset start with
  | nil =>
    obtain rfl := Nat.le_zero.mp room
    have unread : readAt reader ([] ++ [c]) = none := by
      rw [readAt_append_blank blank leaves, readAt_nil]
    exact scanFrom_other (Or.inr unread)
  | cons first rest ih =>
    rw [List.length_cons] at room same
    have behind : ∀ skip start, skip ≤ rest.length →
        scanFrom reader others skip (offset + 1) start (rest ++ [c]) =
          scanFrom reader literals skip (offset + 1) start rest ++ [.other c] :=
      fun skip start room => ih room (fun place inside => same place (by omega))
    cases skip with
    | succ skip => exact behind skip false (by omega)
    | zero =>
      have mark := same offset (by omega)
      have read := readAt_append_blank blank leaves (first :: rest)
      rw [List.cons_append] at read ⊢
      rw [Literal.surrounds, Literal.surrounds] at mark
      rw [scanFrom, scanFrom, mark, read]
      split
      · rename_i length value found
        have fits := length_le_of_readAt (ready_of_found found).2
        rw [List.length_cons] at fits
        have taken : (first :: (rest ++ [c])).take length = (first :: rest).take length :=
          @List.take_append_of_le_length _ (first :: rest) [c] length fits
        rw [behind (length - 1) false (by omega), taken, List.cons_append]
      · rw [behind 0 (isBlank first) (Nat.zero_le _), List.cons_append]

/-- A blank behind a text is no part of a token. -/
theorem scan_append_blank (text : List Char) :
    scan reader (text ++ [c]) = scan reader text ++ [.other c] := by
  apply scanFrom_append_blank blank leaves (Nat.zero_le _)
  intro place inside
  exact Literal.surrounds_append_blank blank 0 0 inside

end Token

omit blank in
theorem Piece.rest_concat {α : Type} (pieces : List (Piece α)) (c : Char) :
    rest (pieces ++ [.other c]) = rest pieces ++ [c] := by
  induction pieces with
  | nil => rfl
  | cons piece pieces ih => cases piece <;> simp only [List.cons_append, rest, ih]

omit blank in
theorem Piece.tokens_concat {α : Type} (pieces : List (Piece α)) (c : Char) :
    tokens (pieces ++ [.other c]) = tokens pieces := by
  induction pieces with
  | nil => rfl
  | cons piece pieces ih => cases piece <;> simp only [List.cons_append, tokens, ih]

theorem Directive.extract_append_blank (text : List Char) (options : Options) :
    extract (text ++ [c]) options =
      ((extract text options).1 ++ [c], (extract text options).2) := by
  simp only [extract, Token.scan_append_blank blank (frames_limit blank),
    Token.scan_append_blank blank (frames_offset blank),
    Token.scan_append_blank blank (frames_sort blank),
    Token.scan_append_blank blank (frames_reverse blank), Piece.rest_concat,
    Piece.values_eq_map_tokens, Piece.tokens_concat]

theorem Pass.all_append_blank {passes : List Pass}
    (leaves : ∀ pass ∈ passes, Frames [c] pass.reader) (text : List Char) :
    restAll passes (text ++ [c]) = restAll passes text ++ [c] ∧
      claimsAll passes (text ++ [c]) = claimsAll passes text := by
  induction passes generalizing text with
  | nil => exact ⟨rfl, rfl⟩
  | cons pass others ih =>
    have scanned := Token.scan_append_blank blank (leaves pass List.mem_cons_self) text
    have rest : pass.rest (text ++ [c]) = pass.rest text ++ [c] := by
      rw [Pass.rest, pieces, scanned, Piece.rest_concat]
      rfl
    have claims : pass.claims (text ++ [c]) = pass.claims text := by
      rw [Pass.claims, pieces, scanned, Piece.tokens_concat]
      rfl
    obtain ⟨left, found⟩ := ih (fun other member => leaves other (List.mem_cons_of_mem pass member))
      (pass.rest text)
    rw [restAll_cons, restAll_cons, claimsAll, claimsAll, rest, claims, left, found]
    exact ⟨rfl, rfl⟩

omit blank in
/-- What trimming takes away stands around what it leaves. -/
theorem Text.exists_around_trim (text : List Char) : ∃ lead trail,
    lead.all isBlank = true ∧ trail.all isBlank = true ∧ text = lead ++ trim text ++ trail := by
  refine ⟨text.takeWhile isBlank, ((trimStart text).reverse.takeWhile isBlank).reverse,
    List.all_takeWhile, ?_, ?_⟩
  · rw [List.all_reverse]
    exact List.all_takeWhile
  · rw [List.append_assoc, trim, trimEnd, ← List.reverse_append, List.takeWhile_append_dropWhile,
      List.reverse_reverse, trimStart, List.takeWhile_append_dropWhile]

/-- A blank behind a text stays behind what stands around its groups. -/
theorem split_append_blank (text : List Char) :
    split (text ++ [c]) = ⟨(split text).groups, (split text).remainder ++ [c]⟩ := by
  apply split_append_silent
  rw [Paren.scanFrom_hidden (Or.inr (Scanner.ne_paren_of_isOrdinary
    (Scanner.isOrdinary_of_blank blank)))]
  rfl

namespace Compiler

variable (compiler : Compiler) (collapse : Selector → Selector)

theorem fill_append_blank (inner : Inner) (kind : Combinator) (groups : List Group)
    (text : List Char) :
    compiler.fill inner kind groups (text ++ [c]) =
      ((compiler.fill inner kind groups text).1 ++ [c],
        (compiler.fill inner kind groups text).2) := by
  obtain ⟨rest, claims⟩ := Pass.all_append_blank blank (Stage.frames_of_mem blank) text
  rw [fill, fill, Stage.runAll_eq, Stage.runAll_eq, rest, claims]

theorem bareSelector_append_blank (cls : EntityClass) (rest : List Char) :
    compiler.bareSelector cls (rest ++ [c]) = compiler.bareSelector cls rest := by
  have words := Text.words_append_blank rest [] c blank
  rw [Text.words_nil, List.append_nil] at words
  rw [bareSelector, bareSelector, BareText.ofRest?, BareText.ofRest?, words]

/-- A blank behind a query text changes nothing. -/
theorem queryAt_append_blank (depth : Nat) (cls : EntityClass) (text : List Char) :
    compiler.queryAt collapse depth cls (text ++ [c]) =
      compiler.queryAt collapse depth cls text := by
  simp only [queryAt, queryWith, split_append_blank blank,
    Directive.extract_append_blank blank, compiler.fill_append_blank blank,
    compiler.bareSelector_append_blank blank]

end Compiler

end Blank

namespace Compiler

variable (compiler : Compiler) (collapse : Selector → Selector)

theorem queryAt_append_blanks (depth : Nat) (cls : EntityClass) (text : List Char)
    {trail : List Char} (blank : trail.all isBlank = true) :
    compiler.queryAt collapse depth cls (text ++ trail) =
      compiler.queryAt collapse depth cls text := by
  induction trail generalizing text with
  | nil => rw [List.append_nil]
  | cons c rest ih =>
    rw [List.all_cons, Bool.and_eq_true] at blank
    have later := ih (text ++ [c]) blank.2
    rw [List.append_assoc, List.singleton_append] at later
    rw [later, queryAt_append_blank blank.1 compiler collapse]

/-- A text and its trimmed form compile alike. -/
theorem queryAt_trimmed (depth : Nat) (cls : EntityClass) (text : List Char) :
    compiler.queryAt collapse depth cls (Text.trim text) =
      compiler.queryAt collapse depth cls text := by
  obtain ⟨lead, trail, leading, trailing, parts⟩ := Text.exists_around_trim text
  conv => rhs; rw [parts]
  rw [compiler.queryAt_append_blanks collapse depth cls _ trailing,
    compiler.queryAt_blanks_append collapse depth cls _ leading]

/-- Blanks around a query text change nothing, whatever the text begins and ends with. So it does
not matter either whether the text of a subquery is trimmed before it is compiled, at any depth. -/
theorem compile_surrounded (cls : EntityClass) {lead trail : String}
    (leading : lead.toList.all isBlank = true) (trailing : trail.toList.all isBlank = true)
    (text : String) :
    compiler.compile (lead ++ text ++ trail) cls = compiler.compile text cls ∧
      ∀ collapse depth, compiler.queryAt collapse depth cls (Text.trim text.toList) =
        compiler.queryAt collapse depth cls text.toList := by
  constructor
  · rw [compile, String.toList_append, String.toList_append,
      compiler.queryAt_append_blanks Selector.simplify compiler.maxDepth cls _ trailing,
      compiler.queryAt_blanks_append Selector.simplify compiler.maxDepth cls _ leading, compile]
  · intro collapse depth
    exact compiler.queryAt_trimmed collapse depth cls text.toList

/-- A regular expression that ends in a backslash, and a quote and a group that are never closed. -/
theorem compile_surrounded_open :
    ({} : Compiler).compile "\u3000 key~/a\\/ \n" ⟨"User", []⟩ =
        ({} : Compiler).compile "key~/a\\/" ⟨"User", []⟩ ∧
      ({} : Compiler).compile "\t(=\"a b\u00a0" ⟨"User", []⟩ =
        ({} : Compiler).compile "(=\"a b" ⟨"User", []⟩ :=
  ⟨(@compile_surrounded {} ⟨"User", []⟩ "\u3000 " " \n" rfl rfl "key~/a\\/").1,
    (@compile_surrounded {} ⟨"User", []⟩ "\t" "\u00a0" rfl rfl "(=\"a b").1⟩

end Compiler

end SelectorLang
