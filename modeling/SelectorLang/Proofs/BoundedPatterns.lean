import SelectorLang.Proofs.LeadingBlanks
import SelectorLang.Proofs.LiteralTokens
import SelectorLang.Proofs.NormalForm
import SelectorLang.Proofs.PrintedTexts

set_option autoImplicit false

namespace SelectorLang

/-- A comparison of a field with a whole number of 64 bits that it has to be below of. -/
structure Bound where
  field : FieldName
  value : Int
  fits : -0x8000_0000_0000_0000 ≤ value ∧ value < 0x8000_0000_0000_0000

namespace Bound

def number (bound : Bound) : Number := .whole bound.value (Number.fits_of_signed bound.fits)

/-- The text `f<n`. -/
def text (bound : Bound) : List Char := bound.field.chars ++ '<' :: Number.text bound.number

def clause (bound : Bound) : Clause :=
  ⟨false, .compare .less (.absolute (String.ofList bound.field.chars) bound.number)⟩

/-- The text `f<n g~"pattern"`. -/
def withPattern (bound : Bound) (field : FieldName) (pattern : List Char) : List Char :=
  bound.text ++ ' ' :: (field.chars ++ '~' :: quotedText pattern)

/-- The selector with the two clauses of that text. -/
def selector (bound : Bound) (field : FieldName) (pattern : List Char) : Selector where
  kind := .allOf
  clauses := {
    like := ⟨[(String.ofList field.chars, String.ofList pattern)], []⟩
    less := ⟨[.absolute (String.ofList bound.field.chars) bound.number], []⟩ }

end Bound

/-- The first angle bracket of the text closes, and a blank stands behind it. -/
def closesEarly (text : List Char) : Bool :=
  match text.dropWhile (fun c => c != '<' && c != '>') with
  | '>' :: c :: _ => isBlank c
  | _ => false

theorem exists_bracket (text : List Char) :
    ∃ front back, text = front ++ back ∧ (∀ c ∈ front, (c == '<' || c == '>') = false) ∧
      (back = [] ∨ ∃ rest, back = '<' :: rest ∨ back = '>' :: rest) := by
  induction text with
  | nil => exact ⟨[], [], rfl, fun _ member => absurd member List.not_mem_nil, Or.inl rfl⟩
  | cons c rest ih =>
    cases bracket : c == '<' || c == '>' with
    | true =>
      refine ⟨[], c :: rest, rfl, fun _ member => absurd member List.not_mem_nil, Or.inr ⟨rest, ?_⟩⟩
      simp only [Bool.or_eq_true, beq_iff_eq] at bracket
      rcases bracket with rfl | rfl
      · exact Or.inl rfl
      · exact Or.inr rfl
    | false =>
      obtain ⟨front, back, rfl, plain, shape⟩ := ih
      exact ⟨c :: front, back, rfl, List.forall_mem_cons.mpr ⟨bracket, plain⟩, shape⟩

theorem closesEarly_append {front : List Char}
    (plain : ∀ c ∈ front, (c == '<' || c == '>') = false) (back : List Char) :
    closesEarly (front ++ back) = closesEarly back := by
  have passed : ∀ c ∈ front, (c != '<' && c != '>') = true := by
    intro c member
    obtain ⟨opening, closing⟩ := Bool.or_eq_false_iff.mp (plain c member)
    rw [bne, bne, opening, closing]
    rfl
  rw [closesEarly, List.dropWhile_append_of_pos passed, closesEarly]

theorem closesEarly_closing (rest : List Char) :
    closesEarly ('>' :: rest) = rest.head?.any isBlank := by
  cases rest <;> rfl

namespace Token

variable {α : Type} {reader : Reader α}

/-- A word that is not read, a blank and another word: the scan depends on the second word. -/
theorem scan_pair (dark : reader.Dark) {first second : List Char}
    (bare : ∀ c ∈ first, isBare c = true)
    (unread : readAt reader (first ++ ' ' :: second) = none) (solid : Solid second)
    (value : Option α) (claims : ∀ found, value = some found → Claims reader second found)
    (refuses : value = none → Refuses reader second) :
    scan reader (first ++ ' ' :: second) =
      first.map .other ++ .other ' ' :: Slot.wordPieces second value := by
  have silent : Literal.Silent first (' ' :: second) :=
    silent_of_unquoted bare (Reader.stops_cons_ne (by decide) second)
  have spans : Literal.spans (first ++ ' ' :: second) =
      Literal.spansFrom 0 (0 + first.length + 1) (second ++ []) := by
    rw [Literal.spans, Literal.spansFrom_silent silent, Literal.spansFrom_blank rfl,
      List.append_nil]
  have word : ∀ c ∈ first, isBlank c = false := fun c member => (isBare_iff.mp (bare c member)).1
  obtain ⟨start, front⟩ :=
    scanFrom_dark word (Literal.spans (first ++ ' ' :: second)) 0 true (Or.inr unread)
  obtain ⟨_, _, _, _, behind⟩ := Slot.scanFrom_word solid (Eq.refl (endsWord [])) claims refuses []
    (0 + first.length + 1) (fun _ member => absurd member List.not_mem_nil)
  rw [List.nil_append, ← spans, List.append_nil] at behind
  rw [scan, front, Slot.scanFrom_gap dark _ rfl, behind, scanFrom, List.append_nil]

/-- Such a scan leaves the first word, and the second one if it is not read. -/
theorem pieces_pair (first second : List Char) (value : Option α) :
    Piece.rest (first.map .other ++ .other ' ' :: Slot.wordPieces second value) =
        first ++ ' ' :: (if value.isSome then [' '] else second) ∧
      Piece.tokens (first.map .other ++ .other ' ' :: Slot.wordPieces second value) =
        value.toList.map (fun found => (second, found)) := by
  rw [Slot.rest_others, Slot.tokens_others, Piece.rest, Piece.tokens]
  cases value with
  | none =>
    have left := Slot.rest_others (α := α) second []
    have found := Slot.tokens_others (α := α) second []
    rw [List.append_nil] at left found
    rw [Slot.wordPieces, left, found, Piece.rest, List.append_nil]
    exact ⟨rfl, rfl⟩
  | some found => exact ⟨rfl, rfl⟩

end Token

namespace Pass

variable {pass : Pass} {text : List Char}

/-- What the pieces of a scan say about a pass. -/
theorem rest_claims_of_scan {pieces : List (Piece (Option Clause))}
    (scanned : Token.scan pass.reader text = pieces) :
    pass.rest text = Piece.rest pieces ∧
      pass.claims text =
        (Piece.tokens pieces).map (fun token => ⟨pass.stage, pass.place, token.1, token.2⟩) := by
  rw [rest, claims, Pass.pieces, scanned]
  exact ⟨rfl, rfl⟩

theorem all_of_untouched {passes : List Pass}
    (untouched : ∀ pass ∈ passes, pass.rest text = text ∧ pass.claims text = []) :
    restAll passes text = text ∧ claimsAll passes text = [] := by
  induction passes with
  | nil => exact ⟨rfl, rfl⟩
  | cons pass others ih =>
    obtain ⟨⟨rest, none⟩, behind⟩ := List.forall_mem_cons.mp untouched
    obtain ⟨left, found⟩ := ih behind
    rw [restAll_cons, claimsAll, rest, none, left, found]
    exact ⟨rfl, rfl⟩

end Pass

namespace Clause

open Reader

/-- Behind a field an opening angle bracket without a brace begins nothing but a containment or an
upper bound. -/
theorem unread_below {embed : List Char → List Char → Option Query} (field : FieldName) {c : Char}
    (braceless : c ≠ '\x7b') (rest : List Char) :
    ∀ pass ∈ Stage.placed (Stage.all embed), pass.stage ∉ ["contain", "lt", "lte"] →
      pass.reader (field.chars ++ '<' :: c :: rest) = none := by
  have subject := target_append field false (c := '<') rfl (by decide) (c :: rest)
  rw [mark_false, List.append_nil] at subject
  have behind : ∀ {next : String × Bool → Reader (Option Clause)},
      next (String.ofList field.chars, false) ('<' :: c :: rest) = none →
        (target >>= next) (field.chars ++ '<' :: c :: rest) = none := by
    intro next failed
    rw [bind_of_some next subject, failed]
  have brace : exactly ['<', '\x7b'] ('<' :: c :: rest) = none := by
    apply exactly_of_mismatch
    rw [List.isPrefixOf_cons_cons, List.isPrefixOf_cons_cons,
      beq_eq_false_iff_ne.mpr braceless.symm, Bool.false_and, Bool.and_false]
  have sign : ∀ {d : Char} (others : List Char), (d == '<') = false →
      exactly (d :: others) ('<' :: c :: rest) = none :=
    fun others other => exactly_of_ne (beq_eq_false_iff_ne.mp other) others (c :: rest)
  have ordering : ∀ (relation : Relation), relation.stage ∉ ["contain", "lt", "lte"] →
      ∀ {next : String × Bool → Unit → Reader (Option Clause)},
        (target >>= fun subject => exactly relation.sign >>= next subject)
          (field.chars ++ '<' :: c :: rest) = none := by
    intro relation other next
    cases relation with
    | greater => exact behind (bind_of_none _ (sign [] rfl))
    | greaterEq => exact behind (bind_of_none _ (sign ['='] rfl))
    | less => exact absurd (by decide) other
    | lessEq => exact absurd (by decide) other
  exact Stage.forall_placed (fun _ => behind (bind_of_none _ brace))
    (fun _ => behind (bind_of_none _ (sign [] rfl))) (fun _ => behind (bind_of_none _ brace))
    (fun listed => absurd List.mem_cons_self listed)
    (fun _ => behind (bind_of_none _ (sign [] rfl)))
    (fun _ => behind (bind_of_none _ (sign [] rfl)))
    (fun _ => bind_of_none _ (exactly_of_field rfl [] field _))
    (fun _ => bind_of_none _ (exactly_of_field rfl [] field _))
    (fun _ => bind_of_none _ (exactly_of_field rfl [] field _))
    (fun relation other => ordering relation other) (fun relation other => ordering relation other)

end Clause

namespace Bound

open Clause

variable (bound : Bound)

theorem text_eq : bound.text = comparisonText .less bound.field false (numeralOf bound.value) := by
  rw [comparisonText, numeralText_numeralOf bound.value (Number.fits_of_signed bound.fits),
    mark_false, List.append_nil, List.append_assoc]
  rfl

/-- A number stands behind the bracket, which begins with a digit or a minus sign. -/
theorem exists_text : ∃ c rest, Number.text bound.number = c :: rest ∧ isFieldChar c = true := by
  have nonempty : Number.text bound.number ≠ [] := by
    rw [number, number_text]
    exact List.append_ne_nil_of_right_ne_nil _ Nat.toDigits_ne_nil
  obtain ⟨c, rest, parts⟩ := List.exists_cons_of_ne_nil nonempty
  exact ⟨c, rest, parts, isFieldChar_of_mem_number (parts ▸ List.mem_cons_self)⟩

theorem bare_text : ∀ c ∈ bound.text, isBare c = true := by
  have digits : ∀ c ∈ Number.text bound.number, isBare c = true :=
    fun c member => isBare_of_isFieldChar (isFieldChar_of_mem_number member)
  refine List.forall_mem_append.mpr ⟨?_, List.forall_mem_cons.mpr ⟨rfl, digits⟩⟩
  exact fun c member => isBare_of_isFieldChar (Phrase.isFieldChar_of_mem bound.field member)

theorem text_ne_nil : bound.text ≠ [] :=
  List.append_ne_nil_of_left_ne_nil bound.field.nonempty _

theorem claims_text : Token.Claims (absolute .less) bound.text (some bound.clause) := by
  intro after ends
  rw [text_eq, absolute_append .less bound.field false (plain_numeralOf bound.value) ends,
    ofOperand?_numeralOf bound.value bound.fits]
  rfl

/-- No pass reads a bound but those for containments and upper bounds. -/
theorem unread {embed : List Char → List Char → Option Query} {pass : Pass}
    (member : pass ∈ Stage.placed (Stage.all embed))
    (other : pass.stage ∉ ["contain", "lt", "lte"]) (after : List Char) :
    pass.reader (bound.text ++ after) = none := by
  obtain ⟨c, rest, parts, name⟩ := bound.exists_text
  have braceless : c ≠ '\x7b' := Reader.ne_of_accepted name rfl
  rw [text, parts, List.append_assoc]
  exact unread_below bound.field braceless (rest ++ after) pass member other

end Bound

namespace Clause

open Reader

/-- A containment is read up to the first bracket in its body. -/
theorem contain_append (field : FieldName) (negated : Bool) {body : List Char}
    (units : Body (fun c => c == '<' || c == '>') body) (nonempty : body ≠ []) (after : List Char) :
    contain (field.chars ++ mark negated ++ '<' :: (body ++ '>' :: after)) =
      some (some ⟨negated, .contain (String.ofList field.chars)
        (valueOf (LiteralKind.unescape .angle body))⟩, after) := by
  have subject := target_append field negated (c := '<') rfl (by decide) (body ++ '>' :: after)
  have inside := escapedRun1_append units nonempty '>' after (by decide) rfl
  simp only [contain, bind_apply, subject, exactly_singleton, inside, Option.bind_some, pure_apply]
  rfl

theorem contain_of_unclosed (field : FieldName) (negated : Bool) {text : List Char}
    (unclosed : Stops (· == '>') (escapedRun.go (fun c => c == '<' || c == '>') text).2) :
    contain (field.chars ++ mark negated ++ '<' :: text) = none := by
  have subject := target_append field negated (c := '<') rfl (by decide) text
  have closing := @exactly_of_stops _ [] _ unclosed
  rw [contain, bind_of_some _ subject, bind_of_some _ (exactly_singleton '<' text)]
  simp only [escapedRun1, bind_apply, escapedRun, Option.bind_some]
  split
  · rfl
  · simp only [pure_apply, Option.bind_some, closing, Option.bind_none]

end Clause

namespace Bound

open Clause Reader

variable (bound : Bound) (field : FieldName)

/-- What stands between the bracket of the bound and a part of the pattern. -/
def lead (front : List Char) : List Char :=
  Number.text bound.number ++
    ' ' :: (field.chars ++ '~' :: '"' :: LiteralKind.quote.escape front)

theorem withPattern_eq (front back : List Char) :
    bound.withPattern field (front ++ back) = bound.field.chars ++ mark false ++
      '<' :: (bound.lead field front ++ (LiteralKind.quote.escape back ++ ['"'])) := by
  simp only [withPattern, text, lead, quotedText, LiteralKind.escape_append, mark_false,
    List.append_nil, List.append_assoc, List.cons_append]

theorem lead_ne_nil (front : List Char) : bound.lead field front ≠ [] :=
  List.append_ne_nil_of_right_ne_nil _ (List.cons_ne_nil _ _)

/-- No bracket stands in front of the first one of the pattern. -/
theorem body_lead {front : List Char} (plain : ∀ c ∈ front, (c == '<' || c == '>') = false) :
    Body (fun c => c == '<' || c == '>') (bound.lead field front) := by
  have names : ∀ c, isFieldChar c = true → c ≠ '\\' ∧ (c == '<' || c == '>') = false := by
    intro c name
    have other : ∀ d, isFieldChar d = false → c ≠ d := fun _ => ne_of_accepted name
    rw [beq_eq_false_iff_ne.mpr (other '<' rfl), beq_eq_false_iff_ne.mpr (other '>' rfl)]
    exact ⟨other '\\' rfl, rfl⟩
  have digits : Body (fun c => c == '<' || c == '>') (Number.text bound.number) :=
    Body.of_all (fun c member => names c (isFieldChar_of_mem_number member))
  have letters : Body (fun c => c == '<' || c == '>') field.chars :=
    Body.of_all (fun c member => names c (Phrase.isFieldChar_of_mem field member))
  have escaped := LiteralKind.quote.body_escape_of_outside (fun c member _ => plain c member)
  exact digits.append (.plain ' ' _ (by decide) rfl (letters.append
    (.plain '~' _ (by decide) rfl (.plain '"' _ (by decide) rfl escaped))))

/-- A word ends in front of the rest of an escaped pattern just where the rest begins with a
blank. -/
theorem endsWord_escape (rest : List Char) :
    Token.endsWord (LiteralKind.quote.escape rest ++ ['"']) = rest.head?.any isBlank := by
  cases rest with
  | nil => rfl
  | cons c rest =>
    rw [LiteralKind.escape]
    split
    · rename_i special
      have dark : isBlank c = false := by
        simp only [LiteralKind.isDelimiter, Bool.or_eq_true, beq_iff_eq] at special
        rcases special with rfl | rfl <;> rfl
      exact dark.symm
    · rfl

theorem readAt_unclosed {front back : List Char}
    (plain : ∀ c ∈ front, (c == '<' || c == '>') = false)
    (unclosed : Stops (· == '>') (escapedRun.go (fun c => c == '<' || c == '>')
      (LiteralKind.quote.escape back ++ ['"'])).2) :
    Token.readAt contain (bound.withPattern field (front ++ back)) = none := by
  rw [withPattern_eq]
  apply Token.readAt_of_none
  apply contain_of_unclosed
  rwa [go_body_append (bound.body_lead field plain)]

/-- A containment ends at the first bracket, if that closes and a blank stands behind it. -/
theorem readAt_closing {front : List Char} (plain : ∀ c ∈ front, (c == '<' || c == '>') = false)
    (rest : List Char) :
    Token.readAt contain (bound.withPattern field (front ++ '>' :: rest)) =
      if rest.head?.any isBlank then
        some ((bound.field.chars ++ mark false ++ '<' :: (bound.lead field front ++ ['>'])).length,
          some ⟨false, .contain (String.ofList bound.field.chars)
            (valueOf (LiteralKind.unescape .angle (bound.lead field front)))⟩)
      else none := by
  have read := contain_append bound.field false (bound.body_lead field plain)
    (bound.lead_ne_nil field front) (LiteralKind.quote.escape rest ++ ['"'])
  have lexeme : bound.field.chars ++ mark false ++ '<' :: (bound.lead field front ++
      '>' :: (LiteralKind.quote.escape rest ++ ['"'])) =
        (bound.field.chars ++ mark false ++ '<' :: (bound.lead field front ++ ['>'])) ++
          (LiteralKind.quote.escape rest ++ ['"']) := by
    simp only [List.append_assoc, List.cons_append, List.nil_append]
  have closing : LiteralKind.quote.escape ('>' :: rest) ++ ['"'] =
      '>' :: (LiteralKind.quote.escape rest ++ ['"']) := rfl
  rw [lexeme] at read
  rw [withPattern_eq, closing, lexeme, Token.readAt_append (List.append_ne_nil_of_right_ne_nil _
    (List.cons_ne_nil _ _)) read, endsWord_escape]

/-- Read as a containment, the text has a token just where a bracket closes early. -/
theorem readAt_contain (pattern : List Char) :
    closesEarly pattern = false ∧
        Token.readAt contain (bound.withPattern field pattern) = none ∨
      closesEarly pattern = true ∧ ∃ length value,
        Token.readAt contain (bound.withPattern field pattern) =
          some (length, some ⟨false, .contain (String.ofList bound.field.chars) value⟩) := by
  obtain ⟨front, back, rfl, plain, shape⟩ := exists_bracket pattern
  rw [closesEarly_append plain]
  rcases shape with rfl | ⟨rest, rfl | rfl⟩
  · exact Or.inl ⟨rfl, bound.readAt_unclosed field plain (stops_nil _)⟩
  · left
    refine ⟨rfl, bound.readAt_unclosed field plain ?_⟩
    have opening : LiteralKind.quote.escape ('<' :: rest) ++ ['"'] =
        '<' :: (LiteralKind.quote.escape rest ++ ['"']) := rfl
    rw [opening, go_closing (by decide) rfl]
    exact stops_cons_ne (by decide) _
  · rw [closesEarly_closing, bound.readAt_closing field plain rest]
    cases rest.head?.any isBlank with
    | false => exact Or.inl ⟨rfl, rfl⟩
    | true => exact Or.inr ⟨rfl, _, _, rfl⟩

variable {embed : List Char → List Char → Option Query}

def phrase (field : FieldName) (pattern : List Char) : Phrase :=
  ⟨false, .onField field (.like false pattern)⟩

theorem withPattern_phrase (pattern : List Char) :
    bound.withPattern field pattern = bound.text ++ ' ' :: (phrase field pattern).text := by
  simp only [withPattern, phrase, Phrase.text, Operand.text, mark_false, List.append_nil,
    Bool.false_eq_true, ↓reduceIte]

/-- A pass that reads neither word leaves the text as it is. -/
theorem untouched {pass : Pass} (dark : pass.reader.Dark) (pattern : List Char)
    (unread : Token.readAt pass.reader (bound.withPattern field pattern) = none)
    (refuses : Token.Refuses pass.reader (phrase field pattern).text) :
    pass.rest (bound.withPattern field pattern) = bound.withPattern field pattern ∧
      pass.claims (bound.withPattern field pattern) = [] := by
  rw [withPattern_phrase] at unread ⊢
  have scanned := Token.scan_pair dark bound.bare_text unread (phrase field pattern).solid none
    (fun _ none => nomatch none) (fun _ => refuses)
  obtain ⟨rest, claims⟩ := Pass.rest_claims_of_scan scanned
  obtain ⟨left, found⟩ := Token.pieces_pair (α := Option Clause) bound.text
    (phrase field pattern).text none
  rw [rest, claims, left, found]
  exact ⟨rfl, rfl⟩

/-- The text once the pattern is read. -/
def cleared : List Char := bound.text ++ [' ', ' ']

theorem like_withPattern (member : ⟨"like", 0, like⟩ ∈ Stage.placed (Stage.all embed))
    (pattern : List Char) :
    Pass.rest ⟨"like", 0, like⟩ (bound.withPattern field pattern) = bound.cleared ∧
      (Pass.claims ⟨"like", 0, like⟩ (bound.withPattern field pattern)).filterMap Claim.clause =
        [(phrase field pattern).clause] := by
  have unread := Token.readAt_of_none
    (bound.unread member (by decide) (' ' :: (phrase field pattern).text))
  have scanned := Token.scan_pair dark_like bound.bare_text unread (phrase field pattern).solid
    (some (some (phrase field pattern).clause))
    (fun _ same => Option.some.inj same ▸ claims_like field false false pattern)
    (fun none => nomatch none)
  obtain ⟨rest, claims⟩ := @Pass.rest_claims_of_scan ⟨"like", 0, like⟩ _ _ scanned
  obtain ⟨left, found⟩ := Token.pieces_pair bound.text (phrase field pattern).text
    (some (some (phrase field pattern).clause))
  rw [withPattern_phrase, rest, claims, left, found]
  exact ⟨rfl, rfl⟩

/-- What a pass behind the pattern's finds is the bound or nothing. -/
theorem scan_cleared {reader : Reader (Option Clause)} (dark : reader.Dark)
    (value : Option (Option Clause))
    (claims : ∀ found, value = some found → Token.Claims reader bound.text found)
    (refuses : value = none → Token.Refuses reader bound.text) :
    Token.scan reader bound.cleared =
      Slot.wordPieces bound.text value ++ [.other ' ', .other ' '] := by
  have apart : Slot.Apart [.word (), .gap ' ', .gap ' '] :=
    .word () ' ' rfl (.gap ' ' rfl .nil)
  have solid : Solid bound.text := solid_of_bare bound.text_ne_nil bound.bare_text
  exact @Slot.scan_text Unit _ (fun _ => bound.text) (fun _ => value) reader dark _ apart
    (fun _ _ => solid) (fun _ _ => claims) (fun _ _ => refuses)

theorem untouched_cleared {pass : Pass} (member : pass ∈ Stage.placed (Stage.all embed))
    (other : pass.stage ∉ ["contain", "lt", "lte"]) :
    pass.rest bound.cleared = bound.cleared ∧ pass.claims bound.cleared = [] := by
  have scanned := bound.scan_cleared (Stage.dark_of_mem member) none (fun _ none => nomatch none)
    (fun _ after _ => bound.unread member other after)
  obtain ⟨rest, claims⟩ := Pass.rest_claims_of_scan scanned
  rw [rest, claims, Slot.wordPieces, Slot.rest_others, Slot.tokens_others]
  exact ⟨rfl, rfl⟩

theorem less_cleared :
    Pass.rest ⟨"lt", 0, absolute .less⟩ bound.cleared = [' ', ' ', ' '] ∧
      (Pass.claims ⟨"lt", 0, absolute .less⟩ bound.cleared).filterMap Claim.clause =
        [bound.clause] := by
  have scanned := bound.scan_cleared (dark_absolute .less) (some (some bound.clause))
    (fun _ same => Option.some.inj same ▸ bound.claims_text) (fun none => nomatch none)
  obtain ⟨rest, claims⟩ := @Pass.rest_claims_of_scan ⟨"lt", 0, absolute .less⟩ _ _ scanned
  rw [rest, claims]
  exact ⟨rfl, rfl⟩

/-- The order of the passes: those in front of the one for patterns refuse patterns, and those
between it and the one for numbers below a bound refuse bounds. -/
theorem placed_eq (embed : List Char → List Char → Option Query) (pattern : List Char) :
    ∃ early middle late, Stage.placed (Stage.all embed) =
        early ++ ⟨"contain", 0, contain⟩ :: ⟨"match", 0, regex⟩ :: ⟨"like", 0, like⟩ ::
          (middle ++ ⟨"lt", 0, absolute .less⟩ :: late) ∧
      (∀ pass ∈ early, pass.stage ∉ ["contain", "lt", "lte"] ∧
        Token.Refuses pass.reader (phrase field pattern).text) ∧
      ∀ pass ∈ middle, pass.stage ∉ ["contain", "lt", "lte"] := by
  refine ⟨[⟨"qref", 0, subquery embed⟩, ⟨"equal", 0, equal⟩, ⟨"ref", 0, reference⟩],
    [⟨"guid", 0, guid⟩, ⟨"truthy", 0, truthy⟩, ⟨"tag", 0, tag⟩, ⟨"gt", 0, absolute .greater⟩,
      ⟨"gt", 1, relative .greater⟩, ⟨"gte", 0, absolute .greaterEq⟩,
      ⟨"gte", 1, relative .greaterEq⟩],
    [⟨"lt", 1, relative .less⟩, ⟨"lte", 0, absolute .lessEq⟩, ⟨"lte", 1, relative .lessEq⟩],
    rfl, ?_, ?_⟩
  · simp only [List.forall_mem_cons, List.not_mem_nil, false_implies, implies_true, and_true]
    have before : ∀ {place : Nat}, place < 5 → place < (phrase field pattern).place := id
    exact ⟨⟨by decide, refuses_subquery embed (before (by decide))⟩,
      ⟨by decide, refuses_equal (before (by decide))⟩,
      by decide, refuses_reference (before (by decide))⟩
  · simp only [List.forall_mem_cons, List.not_mem_nil, false_implies, implies_true, and_true]
    decide

/-- The stages read both clauses where no containment is found. -/
theorem passes_withPattern (embed : List Char → List Char → Option Query) (pattern : List Char)
    (uncontained : Token.readAt contain (bound.withPattern field pattern) = none) :
    Text.words (Pass.restAll (Stage.placed (Stage.all embed)) (bound.withPattern field pattern)) =
        [] ∧
      (Pass.claimsAll (Stage.placed (Stage.all embed))
          (bound.withPattern field pattern)).filterMap Claim.clause =
        [(phrase field pattern).clause, bound.clause] := by
  obtain ⟨early, middle, late, order, refused, behind⟩ := placed_eq field embed pattern
  have member : ∀ pass ∈ early ++ ⟨"contain", 0, contain⟩ :: ⟨"match", 0, regex⟩ ::
      ⟨"like", 0, like⟩ :: (middle ++ ⟨"lt", 0, absolute .less⟩ :: late),
      pass ∈ Stage.placed (Stage.all embed) := by
    rw [order]
    exact fun _ => id
  simp only [List.forall_mem_append, List.forall_mem_cons] at member
  obtain ⟨first, listed, regexListed, likeListed, second, _, last⟩ := member
  have unread : ∀ {pass : Pass}, pass ∈ Stage.placed (Stage.all embed) →
      pass.stage ∉ ["contain", "lt", "lte"] →
        Token.readAt pass.reader (bound.withPattern field pattern) = none := by
    intro pass placed other
    rw [withPattern_phrase]
    exact Token.readAt_of_none (bound.unread placed other _)
  have before : ∀ {place : Nat}, place < 5 → place < (phrase field pattern).place := id
  obtain ⟨earlyRest, earlyClaims⟩ := Pass.all_of_untouched (fun pass member =>
    bound.untouched field (Stage.dark_of_mem (first pass member)) pattern
      (unread (first pass member) (refused pass member).1) (refused pass member).2)
  obtain ⟨containRest, containClaims⟩ := bound.untouched field (Stage.dark_of_mem listed) pattern
    uncontained (refuses_contain (before (by decide)))
  obtain ⟨regexRest, regexClaims⟩ := bound.untouched field (Stage.dark_of_mem regexListed) pattern
    (unread regexListed (by decide)) (refuses_regex (before (by decide)))
  obtain ⟨likeRest, likeClaims⟩ := bound.like_withPattern field likeListed pattern
  obtain ⟨middleRest, middleClaims⟩ := Pass.all_of_untouched (fun pass member =>
    bound.untouched_cleared (second pass member) (behind pass member))
  obtain ⟨lessRest, lessClaims⟩ := bound.less_cleared
  have blank : [' ', ' ', ' '].all isBlank = true := rfl
  obtain ⟨lateRest, lateClaims⟩ := Pass.all_blank
    (fun pass member => Stage.dark_of_mem (last pass member)) blank
  simp only [order, Pass.restAll_append, Pass.claimsAll_append, earlyRest, earlyClaims,
    Pass.restAll_cons, Pass.claimsAll, containRest, containClaims, regexRest, regexClaims, likeRest,
    middleRest, middleClaims, lessRest, lateRest, lateClaims, List.nil_append, List.append_nil,
    List.filterMap_append, likeClaims, lessClaims]
  exact ⟨rfl, rfl⟩

/-- A containment that is found in the text is among the clauses. -/
theorem mem_of_readAt_contain (embed : List Char → List Char → Option Query)
    (pattern : List Char) {length : Nat} {clause : Clause}
    (read : Token.readAt contain (bound.withPattern field pattern) = some (length, some clause)) :
    clause ∈ (Pass.claimsAll (Stage.placed (Stage.all embed))
      (bound.withPattern field pattern)).filterMap Claim.clause := by
  obtain ⟨early, middle, late, order, refused, _⟩ := placed_eq field embed pattern
  have first : ∀ pass ∈ early, pass ∈ Stage.placed (Stage.all embed) := by
    intro pass member
    rw [order]
    exact List.mem_append_left _ member
  obtain ⟨earlyRest, _⟩ := Pass.all_of_untouched (fun pass member =>
    bound.untouched field (Stage.dark_of_mem (first pass member)) pattern
      (Token.readAt_of_none (by
        rw [withPattern_phrase]
        exact bound.unread (first pass member) (refused pass member).1 _)) (refused pass member).2)
  have token := Token.mem_scan_of_readAt read
  rw [order, Pass.claimsAll_append, earlyRest, Pass.claimsAll, List.filterMap_append,
    List.filterMap_append]
  refine List.mem_append_right _ (List.mem_append_left _ (List.mem_filterMap.mpr ?_))
  exact ⟨_, List.mem_map.mpr ⟨_, token, rfl⟩, rfl⟩

open Scanner in
theorem split_withPattern (pattern : List Char) :
    split (bound.withPattern field pattern) = ⟨[], bound.withPattern field pattern⟩ := by
  obtain ⟨c, rest, digits, name⟩ := bound.exists_text
  have front : Hides {} bound.field.chars {} :=
    hides_ordinary (fun c member =>
      isOrdinary_of_isFieldChar (Phrase.isFieldChar_of_mem bound.field member))
  have number : Hides {} rest {} := hides_ordinary (fun d member =>
    isOrdinary_of_isFieldChar (@isFieldChar_of_mem_number _ (Number.fits_of_signed bound.fits) _
      (digits ▸ List.mem_cons_of_mem c member)))
  have behind : Hides {} (' ' :: (phrase field pattern).text) {} :=
    .ordinary rfl (phrase field pattern).hides
  apply @split_of_hides _ {}
  rw [withPattern_phrase, text, digits, List.append_assoc]
  exact front.append (.cons (Or.inr (by decide)) rfl
    (.ordinary (isOrdinary_of_isFieldChar name) (number.append behind)))

/-- What reads neither a bound nor a printed clause finds nothing in the text. -/
theorem scan_withPattern {α : Type} {reader : Reader α} (dark : reader.Dark)
    (unread : ∀ rest, reader (bound.field.chars ++ '<' :: rest) = none)
    (refuses : ∀ phrase : Phrase, Token.Refuses reader phrase.text) (pattern : List Char) :
    Piece.rest (Token.scan reader (bound.withPattern field pattern)) =
        bound.withPattern field pattern ∧
      Piece.values (Token.scan reader (bound.withPattern field pattern)) = [] := by
  have first : reader (bound.text ++ ' ' :: (phrase field pattern).text) = none := by
    rw [text, List.append_assoc]
    exact unread _
  have scanned := Token.scan_pair dark bound.bare_text (Token.readAt_of_none first)
    (phrase field pattern).solid none (fun _ none => nomatch none) (fun _ => refuses _)
  obtain ⟨left, found⟩ := Token.pieces_pair (α := α) bound.text (phrase field pattern).text none
  rw [withPattern_phrase, Piece.values_eq_map_tokens, scanned, left, found]
  exact ⟨rfl, rfl⟩

open Directive in
theorem extract_withPattern (pattern : List Char) (className : String) :
    extract (bound.withPattern field pattern) { className := className } =
      (bound.withPattern field pattern, { className := className }) := by
  have limits := bound.scan_withPattern field dark_limit
    (unread_below bound.field ['l', 'i', 'm', 'i', 't'] rfl _)
    (refuses_colon ['l', 'i', 'm', 'i', 't'] rfl _) pattern
  have offsets := bound.scan_withPattern field dark_offset
    (unread_below bound.field ['o', 'f', 'f', 's', 'e', 't'] rfl _)
    (refuses_colon ['o', 'f', 'f', 's', 'e', 't'] rfl _) pattern
  have sorts := bound.scan_withPattern field dark_sort
    (unread_below bound.field ['s', 'o', 'r', 't'] rfl _)
    (refuses_colon ['s', 'o', 'r', 't'] rfl _) pattern
  have reversals := bound.scan_withPattern field dark_reverse
    (unread_below bound.field ['r', 'e', 'v', 'e', 'r', 's', 'e'] rfl _)
    (refuses_colon ['r', 'e', 'v', 'e', 'r', 's', 'e'] rfl _) pattern
  simp only [extract, limits, offsets, sorts, reversals]
  rfl

theorem compile_eq (compiler : Compiler) (cls : EntityClass) (pattern : List Char) :
    ∃ (embed : List Char → List Char → Option Query) (bare : Option Selector) (filled : Selector),
      bare = compiler.bareSelector cls
          (Pass.restAll (Stage.placed (Stage.all embed)) (bound.withPattern field pattern)) ∧
        filled = ({ kind := .allOf } : Selector).addAll
          ((Pass.claimsAll (Stage.placed (Stage.all embed))
            (bound.withPattern field pattern)).filterMap Claim.clause) ∧
        compiler.compile (String.ofList (bound.withPattern field pattern)) cls =
          ⟨{ className := cls.name },
            (if filled.isEmpty && bare.isSome then [] else [filled]) ++ bare.toList⟩ := by
  refine ⟨compiler.embed (compiler.innerAt Selector.simplify compiler.maxDepth cls), _, _, rfl, rfl,
    ?_⟩
  exact compiler.compile_undivided cls (bound.split_withPattern field pattern)
    (bound.extract_withPattern field pattern cls.name) (Stage.runAll_eq _ _ _)

/-- The text is compiled to its two clauses just where no bracket of the pattern closes early: else
a containment takes the front of the pattern. -/
theorem compile_withPattern (compiler : Compiler) (cls : EntityClass) (pattern : List Char) :
    compiler.compile (String.ofList (bound.withPattern field pattern)) cls =
        ⟨{ className := cls.name }, [bound.selector field pattern]⟩ ↔
      closesEarly pattern = false := by
  obtain ⟨embed, bare, filled, found, selected, compiled⟩ :=
    bound.compile_eq field compiler cls pattern
  rw [compiled]
  rcases bound.readAt_contain field pattern with ⟨late, unread⟩ | ⟨early, length, value, read⟩
  · obtain ⟨words, clauses⟩ := bound.passes_withPattern field embed pattern unread
    rw [clauses] at selected
    rw [Compiler.bareSelector_of_words compiler cls words] at found
    rw [found, selected]
    exact ⟨fun _ => late, fun _ => rfl⟩
  · have member := bound.mem_of_readAt_contain field embed pattern read
    have nonempty : filled.isEmpty = false := by
      have count := List.length_pos_of_mem member
      rw [selected, Selector.isEmpty, Selector.clauseCount_addAll, beq_eq_false_iff_ne]
      omega
    have listed : Condition.contain (String.ofList bound.field.chars) value ∈
        filled.listed .contain false := by
      rw [selected, Selector.listed_addAll]
      exact List.mem_append_right _
        (List.mem_map.mpr ⟨_, List.mem_filter.mpr ⟨member, rfl⟩, rfl⟩)
    rw [early, nonempty, Bool.false_and, if_neg Bool.false_ne_true]
    refine ⟨fun same => ?_, fun other => Bool.noConfusion other⟩
    obtain ⟨rfl, _⟩ := List.cons.inj (Query.mk.inj same).2
    cases listed

end Bound

/-- What becomes of the literals of a text. A token of any pass stands apart from a literal or
covers it if and only if it does not cut the literal off, which only tokens do that leave literals
open and end in front of a blank of the literal. So a pattern behind a bound is compiled as it is if
and only if none of its brackets closes early. -/
theorem Compiler.literals_kept {embed : List Char → List Char → Option Query} {pass : Pass}
    (member : pass ∈ Stage.placed (Stage.all embed)) {text : List Char} {token literal : Span}
    (claimed : token ∈ pass.places text) (listed : literal ∈ Literal.spans text)
    (compiler : Compiler) (cls : EntityClass) (bound : Bound) (field : FieldName)
    (pattern : List Char) :
    (token.Apart (Literal.bare text literal) ∨ token.Covers (Literal.bare text literal) ↔
        ¬token.Cuts (Literal.bare text literal)) ∧
      (token.Cuts (Literal.bare text literal) →
        Clause.LeavesOpen pass.stage pass.place (token.slice text) ∧
          ∃ c, text[token.stop]? = some c ∧ isBlank c = true) ∧
      (compiler.compile (String.ofList (bound.withPattern field pattern)) cls =
          ⟨{ className := cls.name }, [bound.selector field pattern]⟩ ↔
        closesEarly pattern = false) := by
  obtain ⟨kept, cut⟩ := Stage.token_place member claimed listed
  exact ⟨kept, cut, bound.compile_withPattern field compiler cls pattern⟩

def Bound.belowFive : Bound := ⟨⟨['f'], by decide, by decide⟩, 5, by decide⟩

def Bound.height : FieldName := ⟨['h'], by decide, by decide⟩

/-- The text `f<5 h~"a> b"`. -/
def Bound.sample : List Char := belowFive.withPattern height "a> b".toList

/-- The containment `f<5 h~"a>` cuts the pattern `"a> b"` in two, and the text is not compiled to a
bound and a pattern. -/
theorem Compiler.literals_kept_cut :
    String.ofList Bound.sample = "f<5 h~\"a> b\"" ∧
      Pass.places ⟨"contain", 0, Clause.contain⟩ Bound.sample = [⟨0, 9⟩] ∧
      Literal.spans Bound.sample = [⟨6, 12⟩] ∧
      Span.Cuts ⟨0, 9⟩ (Literal.bare Bound.sample ⟨6, 12⟩) ∧
      ¬(Span.Apart ⟨0, 9⟩ (Literal.bare Bound.sample ⟨6, 12⟩) ∨
        Span.Covers ⟨0, 9⟩ (Literal.bare Bound.sample ⟨6, 12⟩)) ∧
      ({} : Compiler).compile (String.ofList Bound.sample) ⟨"User", []⟩ ≠
        ⟨{ className := "User" }, [Bound.belowFive.selector Bound.height "a> b".toList]⟩ := by
  have places : Pass.places ⟨"contain", 0, Clause.contain⟩ Bound.sample = [⟨0, 9⟩] := by
    decide +kernel
  have spans : Literal.spans Bound.sample = [⟨6, 12⟩] := by decide +kernel
  have listed : ⟨"contain", 0, Clause.contain⟩ ∈ Stage.placed (Stage.all (fun _ _ => none)) :=
    List.mem_cons_of_mem _ (List.mem_cons_of_mem _ (List.mem_cons_of_mem _ List.mem_cons_self))
  have cuts : Span.Cuts ⟨0, 9⟩ (Literal.bare Bound.sample ⟨6, 12⟩) := by decide +kernel
  have claimed : ⟨0, 9⟩ ∈ Pass.places ⟨"contain", 0, Clause.contain⟩ Bound.sample :=
    places ▸ List.mem_singleton_self _
  have found : ⟨6, 12⟩ ∈ Literal.spans Bound.sample := spans ▸ List.mem_singleton_self _
  obtain ⟨kept, _, compiled⟩ := literals_kept listed claimed found {} ⟨"User", []⟩ Bound.belowFive
    Bound.height "a> b".toList
  refine ⟨by decide, places, spans, cuts, fun whole => kept.mp whole cuts, fun same => ?_⟩
  exact absurd (compiled.mp same) (by decide)

end SelectorLang
