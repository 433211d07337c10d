import SelectorLang.Proofs.CursorLoop
import SelectorLang.Proofs.Directives
import SelectorLang.Proofs.FormReading

set_option autoImplicit false

namespace SelectorLang

open Reader Token Clause

/-- The reader takes the words of a shape, which have no blanks, and nothing else. -/
structure Reader.TakesShape {α : Type} (reader : Reader α) (shape : List Char → Prop) : Prop where
  dark : reader.Dark
  lexemes : reader.Takes (fun lexeme _ => shape lexeme)
  plain : ∀ word, shape word → ∀ c ∈ word, isBlank c = false
  claims : ∀ word, shape word → ∃ value, Claims reader word value

namespace Reader.TakesShape

variable {α : Type} {reader : Reader α} {shape : List Char → Prop}

theorem isSome_readAll_iff (takes : reader.TakesShape shape) {word : List Char} :
    (reader.readAll word).isSome = true ↔ shape word := by
  constructor
  · intro read
    rw [readAll] at read
    split at read
    · rename_i value found
      obtain ⟨lexeme, parts, fits⟩ := takes.lexemes _ _ _ found
      rw [List.append_nil] at parts
      rwa [parts]
    · cases read
  · intro fits
    obtain ⟨value, claims⟩ := takes.claims word fits
    have whole := claims [] rfl
    rw [List.append_nil] at whole
    rw [readAll_of_some whole]
    rfl

theorem takesWords (takes : reader.TakesShape shape) : reader.TakesWords reader.readAll where
  dark := takes.dark
  reads := by
    intro word after nonempty plain ends
    by_cases fits : shape word
    · obtain ⟨value, claims⟩ := takes.claims word fits
      have whole := claims [] rfl
      rw [List.append_nil] at whole
      rw [readAt_append nonempty (claims after ends), if_pos ends, readAll_of_some whole]
      rfl
    · have silent : reader.readAll word = none := by
        rw [← Option.not_isSome_iff_eq_none, takes.isSome_readAll_iff]
        exact fits
      rw [silent, Option.map_none, Option.eq_none_iff_forall_ne_some]
      intro found read
      obtain ⟨lexeme, behind, parts, _, _, own, closed, _⟩ := lexeme_of_readAt takes.lexemes read
      have same := Text.word_unique parts plain (takes.plain lexeme own) ends closed
      rw [same] at fits
      exact fits own

end Reader.TakesShape

namespace Clause

/-- A field, perhaps negated, with an identifier in angle brackets and braces. -/
def IsReferenceWord (word : List Char) : Prop :=
  ∃ (field : FieldName) (negated : Bool) (identifier : Identifier),
    word = field.chars ++ mark negated ++ '<' :: '\x7b' :: (identifier.digits ++ ['\x7d', '>'])

/-- An identifier in braces, perhaps negated. -/
def IsGuidWord (word : List Char) : Prop :=
  ∃ (negated : Bool) (identifier : Identifier),
    word = '\x7b' :: (mark negated ++ (identifier.digits ++ ['\x7d']))

/-- A field in square brackets, perhaps negated. -/
def IsTruthyWord (word : List Char) : Prop :=
  ∃ (negated : Bool) (field : FieldName), word = '[' :: (mark negated ++ (field.chars ++ [']']))

/-- A tag in angle brackets, perhaps negated. Tags have neither blanks nor angle brackets and do not
begin with the mark. -/
def IsTagWord (word : List Char) : Prop :=
  ∃ (negated : Bool) (first : Char) (others : List Char),
    word = '<' :: (mark negated ++ (first :: others ++ ['>'])) ∧ first ≠ '!' ∧
      ∀ c ∈ first :: others, isBlank c = false ∧ c ≠ '<' ∧ c ≠ '>'

theorem takesShape_reference : reference.TakesShape IsReferenceWord where
  dark := dark_reference
  lexemes := by
    refine takes_referenceText.mono ?_
    rintro _ _ ⟨field, negated, digits, rfl, known, _⟩
    exact ⟨field, negated, ⟨digits, known⟩, rfl⟩
  plain := by
    rintro _ ⟨field, negated, identifier, rfl⟩
    exact Phrase.forall_referenceText field negated (fun _ => isBlank_of_isFieldChar) rfl identifier
      (List.forall_mem_cons.mpr ⟨rfl, List.forall_mem_singleton.mpr rfl⟩)
      (List.forall_mem_cons.mpr ⟨rfl, List.forall_mem_singleton.mpr rfl⟩)
  claims := by
    rintro _ ⟨field, negated, identifier, rfl⟩
    exact ⟨_, claims_reference field negated identifier⟩

theorem takesShape_guid : guid.TakesShape IsGuidWord where
  dark := dark_guid
  lexemes := by
    refine takes_guidText.mono ?_
    rintro _ _ ⟨negated, digits, rfl, known, _⟩
    exact ⟨negated, ⟨digits, known⟩, rfl⟩
  plain := by
    rintro _ ⟨negated, identifier, rfl⟩
    exact List.forall_mem_cons.mpr ⟨rfl, Phrase.forall_bracketed negated
      (fun _ => isBlank_of_isFieldChar) rfl
      (fun _ => Phrase.isFieldChar_of_mem_identifier identifier) '\x7d' rfl⟩
  claims := by
    rintro _ ⟨negated, identifier, rfl⟩
    exact ⟨_, claims_guid negated identifier⟩

theorem takesShape_truthy : truthy.TakesShape IsTruthyWord where
  dark := dark_truthy
  lexemes := by
    refine takes_truthyText.mono ?_
    rintro _ _ ⟨negated, field, rfl, _⟩
    exact ⟨negated, field, rfl⟩
  plain := by
    rintro _ ⟨negated, field, rfl⟩
    exact List.forall_mem_cons.mpr ⟨rfl, Phrase.forall_bracketed negated
      (fun _ => isBlank_of_isFieldChar) rfl (fun _ => Phrase.isFieldChar_of_mem field) ']' rfl⟩
  claims := by
    rintro _ ⟨negated, field, rfl⟩
    exact ⟨_, claims_truthy field negated⟩

theorem takesShape_tag : tag.TakesShape IsTagWord where
  dark := dark_tag
  lexemes := by
    refine takes_tagText.mono ?_
    rintro _ _ ⟨negated, first, others, rfl, unmarked, inside, _⟩
    exact ⟨negated, first, others, rfl, unmarked, inside⟩
  plain := by
    rintro _ ⟨negated, first, others, rfl, _, inside⟩
    refine List.forall_mem_cons.mpr ⟨rfl, List.forall_mem_append.mpr ⟨fun c member => ?_,
      List.forall_mem_append.mpr
        ⟨fun c member => (inside c member).1, List.forall_mem_singleton.mpr rfl⟩⟩⟩
    rw [eq_of_mem_mark member]
    rfl
  claims := by
    rintro _ ⟨negated, first, others, rfl, unmarked, inside⟩
    exact ⟨_, claims_tagText negated unmarked inside⟩

end Clause

inductive WordPass where
  | reference
  | guid
  | truthy
  | tag
  | directive (kind : Directive.Kind)
deriving DecidableEq, Repr

namespace WordPass

/-- What a token says. -/
def Answer : WordPass → Type
  | .reference | .guid | .truthy | .tag => Option Clause
  | .directive .limit | .directive .offset => Option UInt64
  | .directive .sort => Option SortField
  | .directive .reverse => Bool

def reader : (pass : WordPass) → Reader pass.Answer
  | .reference => Clause.reference
  | .guid => Clause.guid
  | .truthy => Clause.truthy
  | .tag => Clause.tag
  | .directive .limit => Directive.limit
  | .directive .offset => Directive.offset
  | .directive .sort => Directive.sort
  | .directive .reverse => Directive.reverse

def Fits : WordPass → List Char → Prop
  | .reference, word => IsReferenceWord word
  | .guid, word => IsGuidWord word
  | .truthy, word => IsTruthyWord word
  | .tag, word => IsTagWord word
  | .directive kind, word =>
    ∃ operand, word = kind.name ++ ':' :: operand ∧ kind.accepts operand = true

/-- What a word says, if it is a token. -/
def answer : (pass : WordPass) → List Char → Option pass.Answer
  | .reference, word => Clause.reference.readAll word
  | .guid, word => Clause.guid.readAll word
  | .truthy, word => Clause.truthy.readAll word
  | .tag, word => Clause.tag.readAll word
  | .directive .limit, word => (Directive.Kind.limit.operand? word).map Directive.wordOf?
  | .directive .offset, word => (Directive.Kind.offset.operand? word).map Directive.wordOf?
  | .directive .sort, word => (Directive.Kind.sort.operand? word).map Directive.fieldOf?
  | .directive .reverse, word => (Directive.Kind.reverse.operand? word).map Directive.turns

theorem takesWords (pass : WordPass) : pass.reader.TakesWords pass.answer := by
  match pass with
  | .reference => exact takesShape_reference.takesWords
  | .guid => exact takesShape_guid.takesWords
  | .truthy => exact takesShape_truthy.takesWords
  | .tag => exact takesShape_tag.takesWords
  | .directive .limit => exact Directive.takes_limits
  | .directive .offset => exact Directive.takes_offsets
  | .directive .sort => exact Directive.takes_sorts
  | .directive .reverse => exact Directive.takes_reversals

theorem isSome_answer_iff (pass : WordPass) (word : List Char) :
    (pass.answer word).isSome = true ↔ pass.Fits word := by
  have directive : ∀ {α : Type} (kind : Directive.Kind) (value : List Char → α),
      ((kind.operand? word).map value).isSome = true ↔ Fits (.directive kind) word := by
    intro α kind value
    rw [Option.isSome_map, Option.isSome_iff_exists]
    exact exists_congr (fun _ => Directive.Kind.operand?_eq_some)
  match pass with
  | .reference => exact takesShape_reference.isSome_readAll_iff
  | .guid => exact takesShape_guid.isSome_readAll_iff
  | .truthy => exact takesShape_truthy.isSome_readAll_iff
  | .tag => exact takesShape_tag.isSome_readAll_iff
  | .directive .limit => exact directive .limit _
  | .directive .offset => exact directive .offset _
  | .directive .sort => exact directive .sort _
  | .directive .reverse => exact directive .reverse _

instance (pass : WordPass) (word : List Char) : Decidable (pass.Fits word) :=
  decidable_of_iff _ (pass.isSome_answer_iff word)

/-- The words of a text that the pass is for: they fit, and no literal stands around the place at
which they begin. -/
def own (pass : WordPass) (text : List Char) : List PlacedWord :=
  (Text.placedWords text).filter (fun word =>
    decide (pass.Fits word.chars) && !Literal.surrounds (Literal.spans text) word.offset)

theorem taken_eq_own (pass : WordPass) (text : List Char) :
    Cursor.taken pass.answer (Literal.spans text) (Text.placedWords text) = pass.own text := by
  rw [Cursor.taken_eq_filter, own]
  apply List.filter_congr
  intro word _
  rw [Bool.eq_iff_iff, Bool.and_eq_true, Bool.and_eq_true, decide_eq_true_eq,
    pass.isSome_answer_iff]

/-- A pass over single words is a filter. The loop ends in no more rounds than the text has bytes
and one, since its cursor moves on in every round. It visits the words of the pass in order, each
from its first byte to behind its last one, and they say what the tokens of a scan say. What is left
is the text with a space for each of these words. -/
theorem loop_filters (pass : WordPass) (text : List Char) :
    (Text.placedWords text).map PlacedWord.chars = Text.words text ∧
    (∀ cursor next visited,
      Cursor.round? pass.reader text cursor = some (.go next visited) → cursor < next) ∧
    (∃ visits, Cursor.visits? pass.reader text (Text.byteLength text + 1) 0 = some visits ∧
      visits.map (fun found => (found.start, found.stop)) =
        (pass.own text).map (fun word => word.span.bytes text) ∧
      visits.map Cursor.Found.value = Piece.values (scan pass.reader text)) ∧
    Cursor.strip? pass.reader text = some (Piece.rest (scan pass.reader text)) ∧
    Piece.rest (scan pass.reader text) =
      Span.blankOut ((pass.own text).map PlacedWord.span) text := by
  have takes := pass.takesWords
  refine ⟨Text.chars_placedFrom 0 text, fun _ _ _ => Cursor.lt_of_round?, ⟨_,
    Cursor.visits?_eq takes text, ?_, ?_⟩, Cursor.strip?_eq takes text, ?_⟩
  · rw [← taken_eq_own, Cursor.taken, List.map_map, List.map_map]
    rfl
  · rw [Piece.values_eq_map_tokens, scan, Cursor.tokens_scanFrom takes, List.map_map, List.map_map]
    rfl
  · rw [← taken_eq_own]
    exact Cursor.rest_scanFrom takes (Literal.spans text) 0 text

example : (WordPass.truthy.own "[a] [é] b~\"x [c] y\" [d]".toList).map PlacedWord.span =
    [⟨0, 3⟩, ⟨4, 7⟩, ⟨20, 23⟩] := by decide +kernel

end WordPass

end SelectorLang
