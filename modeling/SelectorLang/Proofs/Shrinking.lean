import Mathlib.Data.List.Basic
import SelectorLang.Proofs.Meaning
import SelectorLang.Proofs.Nesting
import SelectorLang.Proofs.Seams

set_option autoImplicit false

namespace SelectorLang

namespace Text

theorem byteLength_eq (text : List Char) : byteLength text = (String.ofList text).utf8ByteSize := by
  induction text with
  | nil => rfl
  | cons c rest ih =>
    have parts : String.ofList (c :: rest) = String.singleton c ++ String.ofList rest := by
      rw [String.singleton_eq_ofList, ← String.ofList_append, List.singleton_append]
    rw [parts, String.utf8ByteSize_append, String.utf8ByteSize_singleton, byteLength, ih]

theorem byteLength_toList (text : String) : byteLength text.toList = text.utf8ByteSize := by
  rw [byteLength_eq, String.ofList_toList]

theorem byteLength_le_of_sublist {short long : List Char} (sub : short.Sublist long) :
    byteLength short ≤ byteLength long := by
  induction sub with
  | slnil => exact Nat.le_refl _
  | cons c _ ih => exact Nat.le_trans ih (Nat.le_add_left _ _)
  | cons_cons c _ ih => exact Nat.add_le_add_left ih _

theorem byteLength_pos {text : List Char} (nonempty : text ≠ []) : 0 < byteLength text := by
  cases text with
  | nil => exact absurd rfl nonempty
  | cons c rest =>
    have positive := c.utf8Size_pos
    exact Nat.lt_of_lt_of_le positive (Nat.le_add_right _ _)

/-- A space is no longer than what it stands for. -/
theorem byteLength_space_le {lexeme : List Char} (nonempty : lexeme ≠ []) (rest : List Char) :
    byteLength (' ' :: rest) ≤ byteLength lexeme + byteLength rest := by
  have positive := byteLength_pos nonempty
  have one : byteLength (' ' :: rest) = 1 + byteLength rest := rfl
  omega

theorem byteLength_drop_lt {text : List Char} {count : Nat} (some : 0 < count)
    (nonempty : text ≠ []) : byteLength (text.drop count) < byteLength text := by
  have front : text.take count ≠ [] := by
    intro empty
    rcases List.take_eq_nil_iff.mp empty with zero | nil
    · omega
    · exact nonempty nil
  have parts := byteLength_append (text.take count) (text.drop count)
  rw [List.take_append_drop] at parts
  have positive := byteLength_pos front
  omega

theorem sublist_trim (text : List Char) : (trim text).Sublist text := by
  have back : (trimEnd (trimStart text)).Sublist (trimStart text) := by
    unfold trimEnd
    apply List.reverse_sublist.mp
    rw [List.reverse_reverse]
    exact List.dropWhile_sublist _
  exact back.trans (List.dropWhile_sublist _)

theorem sublist_cutAtBlank (text : List Char) : (cutAtBlank text).2.Sublist text :=
  (List.drop_sublist 1 _).trans (List.dropWhile_sublist _)

end Text

theorem LiteralKind.sublist_unescape (kind : LiteralKind) (text : List Char) :
    (kind.unescape text).Sublist text := by
  fun_induction kind.unescape text with
  | case1 => exact List.Sublist.refl _
  | case2 => exact List.Sublist.refl _
  | case3 c next rest _ ih => exact (ih.cons_cons next).cons c
  | case4 c next rest _ ih => exact ih.cons_cons c

theorem Piece.byteLength_rest_le {α : Type} {pieces : List (Piece α)}
    (nonempty : ∀ token ∈ tokens pieces, token.1 ≠ []) :
    Text.byteLength (rest pieces) ≤ Text.byteLength (pieces.flatMap source) := by
  induction pieces with
  | nil => exact Nat.le_refl _
  | cons piece pieces ih =>
    rw [List.flatMap_cons, Text.byteLength_append]
    cases piece with
    | other c =>
      have later := ih nonempty
      simp only [rest, source, Text.byteLength]
      omega
    | token lexeme value =>
      obtain ⟨own, others⟩ := List.forall_mem_cons.mp nonempty
      have space := Text.byteLength_space_le own (rest pieces)
      have later := ih others
      simp only [rest, source] at own space ⊢
      omega

theorem Piece.byteLength_lexeme_le {α : Type} {pieces : List (Piece α)} {token : List Char × α}
    (member : token ∈ tokens pieces) :
    Text.byteLength token.1 ≤ Text.byteLength (pieces.flatMap source) := by
  apply Text.byteLength_le_of_sublist
  have piece : source (.token token.1 token.2) ∈ pieces.map source :=
    List.mem_map_of_mem (mem_tokens.mp member)
  rw [List.flatMap_def]
  exact List.sublist_flatten_of_mem piece

namespace Token

variable {α : Type}

theorem lexeme_ne_nil {reader : Reader α} {text : List Char} {token : List Char × α}
    (member : token ∈ Piece.tokens (scan reader text)) : token.1 ≠ [] := by
  obtain ⟨after, read⟩ := token_scanFrom (Literal.spans text) text 0 0 true token.1 token.2
    (Piece.mem_tokens.mp member)
  obtain ⟨positive, _⟩ := readAt_bounds _ _ _ _ read
  exact List.ne_nil_of_length_pos positive

theorem byteLength_rest_scan (reader : Reader α) (text : List Char) :
    Text.byteLength (Piece.rest (scan reader text)) ≤ Text.byteLength text := by
  have nonempty : ∀ token ∈ Piece.tokens (scan reader text), token.1 ≠ [] :=
    fun _ member => lexeme_ne_nil member
  have bound := Piece.byteLength_rest_le nonempty
  rwa [source_scan] at bound

theorem byteLength_lexeme_scan {reader : Reader α} {text : List Char} {token : List Char × α}
    (member : token ∈ Piece.tokens (scan reader text)) :
    Text.byteLength token.1 ≤ Text.byteLength text := by
  have bound := Piece.byteLength_lexeme_le member
  rwa [source_scan] at bound

end Token

theorem Directive.byteLength_extract (text : List Char) (options : Options) :
    Text.byteLength (extract text options).1 ≤ Text.byteLength text := by
  simp only [extract]
  have limits := Token.byteLength_rest_scan limit text
  have offsets := Token.byteLength_rest_scan offset (Piece.rest (Token.scan limit text))
  have sorts := Token.byteLength_rest_scan sort
    (Piece.rest (Token.scan offset (Piece.rest (Token.scan limit text))))
  have reversals := Token.byteLength_rest_scan reverse
    (Piece.rest (Token.scan sort (Piece.rest (Token.scan offset
      (Piece.rest (Token.scan limit text))))))
  omega

theorem Span.byteLength_blankOutFrom {low : Nat} {spans : List Span} {text : List Char}
    (within : Within (low + text.length) low spans) :
    Text.byteLength (blankOutFrom low spans text) ≤ Text.byteLength text := by
  induction spans generalizing low text with
  | nil => exact Nat.le_refl _
  | cons span others ih =>
    obtain ⟨start, proper, stop, behind⟩ := within
    have middle : (text.drop (span.start - low)).take (span.stop - span.start) ≠ [] := by
      apply List.ne_nil_of_length_pos
      rw [List.length_take, List.length_drop]
      omega
    have later : Within (span.stop + (text.drop (span.stop - low)).length) span.stop others := by
      rw [List.length_drop]
      have place : span.stop + (text.length - (span.stop - low)) = low + text.length := by omega
      rwa [place]
    have skipped : (text.drop (span.start - low)).drop (span.stop - span.start) =
        text.drop (span.stop - low) := by
      rw [List.drop_drop]
      congr 1
      omega
    have front :=
      Text.byteLength_append (text.take (span.start - low)) (text.drop (span.start - low))
    have back :=
      Text.byteLength_append ((text.drop (span.start - low)).take (span.stop - span.start))
      ((text.drop (span.start - low)).drop (span.stop - span.start))
    rw [List.take_append_drop] at front back
    rw [skipped] at back
    have space := Text.byteLength_space_le middle
      (blankOutFrom span.stop others (text.drop (span.stop - low)))
    have rest := ih later
    rw [blankOutFrom, Text.byteLength_append]
    omega

theorem byteLength_remainder (text : List Char) :
    Text.byteLength (split text).remainder ≤ Text.byteLength text := by
  apply Span.byteLength_blankOutFrom
  rw [Nat.zero_add]
  exact Paren.within_outermost text

/-- The body of a group stands between its parentheses. -/
theorem Group.byteLength_body_lt {text : List Char} {group : Group}
    (member : group ∈ (split text).groups) :
    Text.byteLength group.body < Text.byteLength text := by
  obtain ⟨span, listed, rfl⟩ := List.mem_map.mp member
  have nonempty : text ≠ [] := by
    rintro rfl
    cases listed
  obtain ⟨lead, parts, _⟩ := exists_lead (content text span)
  have suffix : (ofSpan text span).body.Sublist (content text span) := by
    conv => rhs; rw [parts]
    exact List.sublist_append_right _ _
  have inner : (content text span).Sublist (text.drop (span.start + 1)) := List.take_sublist _ _
  have bound := Text.byteLength_le_of_sublist (suffix.trans inner)
  have shorter := Text.byteLength_drop_lt (Nat.succ_pos span.start) nonempty
  exact Nat.lt_of_le_of_lt bound shorter

namespace Clause

open Reader

theorem takes_mention :
    Takes mention (fun lexeme found => ∃ field negated body,
      lexeme = subqueryText field negated body ∧ found.className = (bodyParts body).1 ∧
        found.text = (bodyParts body).2) := by
  have last : ∀ (subject : String × Bool) (body : List Char),
      Takes (if isIdentifier body then failure else
        pure ⟨subject.2, subject.1, (bodyParts body).1, (bodyParts body).2⟩ : Reader Mention)
        (fun lexeme found => lexeme = [] ∧ found.className = (bodyParts body).1 ∧
          found.text = (bodyParts body).2) := by
    intro subject body
    split
    · exact takes_failure
    · refine (takes_pure _).mono ?_
      rintro _ _ ⟨rfl, rfl⟩
      exact ⟨rfl, rfl, rfl⟩
  refine (takes_target.bind (fun subject => (takes_exactly ['<', '\x7b']).bind (fun _ =>
    (takes_escapedRun1 (· == '\x7d')).bind (fun body => (takes_exactly ['\x7d', '>']).bind
      (fun _ => last subject body))))).mono ?_
  rintro _ _ ⟨_, ⟨name, negated⟩, _, rfl, ⟨field, rfl, same⟩, _, _, _, rfl, rfl,
    _, body, _, rfl, ⟨rfl, _, _⟩, _, _, _, rfl, rfl, rfl, named, handed⟩
  cases same
  exact ⟨field, negated, _, by simp [subqueryText], named, handed⟩

theorem sublist_bodyParts (body : List Char) : (bodyParts body).2.Sublist body :=
  (Text.sublist_cutAtBlank _).trans ((Text.sublist_trim _).trans
    (LiteralKind.sublist_unescape .curly body))

end Clause

/-- The text of a reference stands between its braces. -/
theorem Stage.byteLength_mention_lt {text : List Char} {mention : Mention}
    (member : mention ∈ mentions text) :
    Text.byteLength mention.text < Text.byteLength text := by
  rw [mentions, Piece.values_eq_map_tokens] at member
  obtain ⟨token, found, rfl⟩ := List.mem_map.mp member
  obtain ⟨⟨field, negated, body, lexeme, _, handed⟩, _⟩ :=
    Token.token_scan Clause.takes_mention found
  have bound := Token.byteLength_lexeme_scan found
  have inner := Text.byteLength_le_of_sublist (Clause.sublist_bodyParts body)
  have named := Text.byteLength_pos field.nonempty
  rw [← handed] at inner
  simp only [lexeme, Clause.subqueryText, Text.byteLength_append, Text.byteLength] at bound
  omega

end SelectorLang
