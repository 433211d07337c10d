import SelectorLang.Proofs.Seams

set_option autoImplicit false

namespace SelectorLang

/-- A blank in front of a text stays in front of what stands around its groups. -/
theorem split_cons_blank {c : Char} (blank : isBlank c = true) (text : List Char) :
    (split (c :: text)).remainder = c :: (split text).remainder ∧
      (split (c :: text)).groups.map (fun group => (group.kind, group.body)) =
        (split text).groups.map (fun group => (group.kind, group.body)) := by
  have ordinary : ∀ d ∈ [c], Scanner.isOrdinary d = true :=
    List.forall_mem_singleton.mpr (Scanner.isOrdinary_of_blank blank)
  have parts := split_ordinary_append ordinary text
  rw [List.singleton_append] at parts
  rw [parts, List.map_map]
  exact ⟨rfl, rfl⟩

theorem Literal.spansFrom_move (skip offset count : Nat) (text : List Char) :
    spansFrom skip (offset + count) text = (spansFrom skip offset text).map (Span.move count) := by
  induction text generalizing skip offset with
  | nil => cases skip <;> rfl
  | cons c rest ih =>
    have next : offset + count + 1 = offset + 1 + count := Nat.add_right_comm offset count 1
    cases skip with
    | succ skip =>
      rw [spansFrom, spansFrom, next]
      exact ih skip (offset + 1)
    | zero =>
      rw [spansFrom, spansFrom, next]
      cases operand (c :: rest) with
      | none => exact ih 0 (offset + 1)
      | some found =>
        have later := ih (rest.length - found.2.length) (offset + 1)
        have stop : offset + 1 + count + (rest.length - found.2.length) =
            offset + 1 + (rest.length - found.2.length) + count := by
          omega
        simp only [List.map_cons, later, Span.move, stop]

namespace Token

variable {α : Type} {reader : Reader α}

theorem scanFrom_move (reader : Reader α) (literals : List Span) (skip offset count : Nat)
    (start : Bool) (text : List Char) :
    scanFrom reader (literals.map (Span.move count)) skip (offset + count) start text =
      scanFrom reader literals skip offset start text := by
  have inside : ∀ place, (literals.map (Span.move count)).any (·.strictlyInside (place + count)) =
      literals.any (·.strictlyInside place) := by
    intro place
    rw [List.any_map]
    congr 1
    funext literal
    simp only [Function.comp_apply, Span.strictlyInside, Span.move, Nat.add_lt_add_iff_right]
  induction text generalizing skip offset start with
  | nil => cases skip <;> rfl
  | cons c rest ih =>
    have next : offset + count + 1 = offset + 1 + count := Nat.add_right_comm offset count 1
    cases skip with
    | succ skip =>
      rw [scanFrom, scanFrom, next]
      exact ih skip (offset + 1) false
    | zero =>
      rw [scanFrom, scanFrom, inside, next]
      simp only [ih]

/-- A blank in front of a text is no part of a token. -/
theorem scan_cons_blank (dark : reader.Dark) {c : Char} (blank : isBlank c = true)
    (text : List Char) : scan reader (c :: text) = .other c :: scan reader text := by
  have literals : Literal.spans (c :: text) = (Literal.spans text).map (Span.move 1) := by
    rw [Literal.spans, Literal.spansFrom_blank blank]
    exact Literal.spansFrom_move 0 0 1 text
  have unread := readAt_of_none (dark c text blank)
  rw [scan, literals, scanFrom_other (Or.inr unread), blank, scanFrom_move, scan]

end Token

theorem Directive.extract_cons_blank {c : Char} (blank : isBlank c = true) (text : List Char)
    (options : Options) :
    extract (c :: text) options = (c :: (extract text options).1, (extract text options).2) := by
  simp only [extract, Token.scan_cons_blank dark_limit blank,
    Token.scan_cons_blank dark_offset blank, Token.scan_cons_blank dark_sort blank,
    Token.scan_cons_blank dark_reverse blank, Piece.rest, Piece.values]

theorem Pass.all_cons_blank {passes : List Pass} (dark : ∀ pass ∈ passes, pass.reader.Dark)
    {c : Char} (blank : isBlank c = true) (text : List Char) :
    restAll passes (c :: text) = c :: restAll passes text ∧
      claimsAll passes (c :: text) = claimsAll passes text := by
  induction passes generalizing text with
  | nil => exact ⟨rfl, rfl⟩
  | cons pass others ih =>
    have scanned := Token.scan_cons_blank (dark pass List.mem_cons_self) blank text
    have rest : pass.rest (c :: text) = c :: pass.rest text := by
      rw [Pass.rest, pieces, scanned]
      rfl
    have claims : pass.claims (c :: text) = pass.claims text := by
      rw [Pass.claims, pieces, scanned]
      rfl
    obtain ⟨left, found⟩ := ih (fun other member => dark other (List.mem_cons_of_mem pass member))
      (pass.rest text)
    rw [restAll_cons, restAll_cons, claimsAll, claimsAll, rest, claims, left, found]
    exact ⟨rfl, rfl⟩

theorem Pass.all_nil (passes : List Pass) : restAll passes [] = [] ∧ claimsAll passes [] = [] := by
  induction passes with
  | nil => exact ⟨rfl, rfl⟩
  | cons pass others ih => exact ih

theorem Pass.all_blank {passes : List Pass} (dark : ∀ pass ∈ passes, pass.reader.Dark)
    {text : List Char} (blank : text.all isBlank = true) :
    restAll passes text = text ∧ claimsAll passes text = [] := by
  induction text with
  | nil => exact all_nil passes
  | cons c rest ih =>
    rw [List.all_cons, Bool.and_eq_true] at blank
    obtain ⟨left, found⟩ := all_cons_blank dark blank.1 rest
    obtain ⟨kept, none⟩ := ih blank.2
    rw [left, found, kept, none]
    exact ⟨rfl, rfl⟩

/-- A blank in front of a text stays unless the whole text is blank. -/
theorem Text.trimEnd_cons_blank {c : Char} (blank : isBlank c = true) (rest : List Char) :
    trimEnd (c :: rest) = if trimEnd rest = [] then [] else c :: trimEnd rest := by
  simp only [trimEnd, List.reverse_cons, List.dropWhile_append, List.isEmpty_iff,
    List.reverse_eq_nil_iff]
  split
  · rw [List.dropWhile_cons_of_pos blank]
    rfl
  · rw [List.reverse_append]
    rfl

namespace Compiler

variable (compiler : Compiler) (collapse : Selector → Selector)

/-- Groups with the same markers and bodies are compiled alike. -/
theorem filterMap_group (depth : Nat) (cls : EntityClass) {first second : List Group}
    (same : first.map (fun group => (group.kind, group.body)) =
      second.map (fun group => (group.kind, group.body))) :
    first.filterMap (compiler.innerAt collapse depth cls).group =
      second.filterMap (compiler.innerAt collapse depth cls).group := by
  have alike : ∀ left right : Group, (left.kind, left.body) = (right.kind, right.body) →
      (compiler.innerAt collapse depth cls).group left =
        (compiler.innerAt collapse depth cls).group right := by
    intro left right parts
    rw [Prod.mk.injEq] at parts
    cases depth with
    | zero => rfl
    | succ below => simp only [innerAt, groupWith, parts.1, parts.2]
  induction first generalizing second with
  | nil =>
    obtain rfl := List.map_eq_nil_iff.mp same.symm
    rfl
  | cons group others ih =>
    cases second with
    | nil => cases same
    | cons other rest =>
      rw [List.map_cons, List.map_cons, List.cons.injEq] at same
      rw [List.filterMap_cons, List.filterMap_cons, alike group other same.1, ih same.2]

theorem fill_cons_blank (inner : Inner) (kind : Combinator) (groups : List Group) {c : Char}
    (blank : isBlank c = true) (text : List Char) :
    compiler.fill inner kind groups (c :: text) =
      (c :: (compiler.fill inner kind groups text).1,
        (compiler.fill inner kind groups text).2) := by
  have dark : ∀ pass ∈ Stage.placed (Stage.all (compiler.embed inner)), pass.reader.Dark :=
    fun pass placed => Stage.dark_of_mem placed
  obtain ⟨rest, claims⟩ := Pass.all_cons_blank dark blank text
  rw [fill, fill, Stage.runAll_eq, Stage.runAll_eq, rest, claims]

theorem bareSelector_cons_blank (cls : EntityClass) {c : Char} (blank : isBlank c = true)
    (rest : List Char) :
    compiler.bareSelector cls (c :: rest) = compiler.bareSelector cls rest := by
  rw [bareSelector, bareSelector, BareText.ofRest?, BareText.ofRest?, Text.words_cons_blank blank]

/-- A blank in front of a query text changes nothing. -/
theorem queryAt_cons_blank (depth : Nat) (cls : EntityClass) {c : Char} (blank : isBlank c = true)
    (text : List Char) :
    compiler.queryAt collapse depth cls (c :: text) = compiler.queryAt collapse depth cls text := by
  obtain ⟨remainder, groups⟩ := split_cons_blank blank text
  have nested := filterMap_group compiler collapse depth cls groups
  have directives := Directive.extract_cons_blank blank (split text).remainder
    { className := cls.name }
  have filled := fun kind => fill_cons_blank compiler (compiler.innerAt collapse depth cls) kind
    (split text).groups blank
      (Directive.extract (split text).remainder { className := cls.name }).1
  have same : ∀ kind rest, compiler.fill (compiler.innerAt collapse depth cls) kind
      (split (c :: text)).groups rest =
        compiler.fill (compiler.innerAt collapse depth cls) kind (split text).groups rest := by
    intro kind rest
    rw [fill, fill, nested]
  simp only [queryAt, queryWith, remainder, directives, same, filled,
    bareSelector_cons_blank compiler cls blank]

theorem queryAt_blanks_append (depth : Nat) (cls : EntityClass) (text : List Char)
    {lead : List Char} (blank : lead.all isBlank = true) :
    compiler.queryAt collapse depth cls (lead ++ text) =
      compiler.queryAt collapse depth cls text := by
  induction lead with
  | nil => rfl
  | cons c rest ih =>
    rw [List.all_cons, Bool.and_eq_true] at blank
    rw [List.cons_append, compiler.queryAt_cons_blank collapse depth cls blank.1, ih blank.2]

theorem queryAt_trim (depth : Nat) (cls : EntityClass) (text : List Char) :
    compiler.queryAt collapse depth cls (Text.trim text) =
      compiler.queryAt collapse depth cls (Text.trimEnd text) := by
  induction text with
  | nil => rfl
  | cons c rest ih =>
    cases blank : isBlank c with
    | false =>
      rw [Text.trim, Text.trimStart, List.dropWhile_cons, blank, if_neg Bool.false_ne_true]
    | true =>
      have inner : Text.trim (c :: rest) = Text.trim rest := by
        rw [Text.trim, Text.trimStart, List.dropWhile_cons, blank, if_pos rfl]
        rfl
      rw [inner, ih, Text.trimEnd_cons_blank blank]
      split
      · rename_i none
        rw [none]
      · rw [queryAt_cons_blank compiler collapse depth cls blank]

end Compiler

end SelectorLang
