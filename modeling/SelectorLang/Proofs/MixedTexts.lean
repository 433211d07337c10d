import SelectorLang.Proofs.Filling
import SelectorLang.Proofs.Printing

set_option autoImplicit false

namespace SelectorLang

inductive Item where
  | word (word : PlainWord)
  | phrase (phrase : Phrase)

namespace Item

def text : Item → List Char
  | .word plain => plain.chars
  | .phrase printed => printed.text

def phrase? : Item → Option Phrase
  | .word _ => none
  | .phrase printed => some printed

def word? : Item → Option (List Char)
  | .word plain => some plain.chars
  | .phrase _ => none

theorem spelled : Spelled text phrase? where
  printed := by
    intro item phrase found
    cases item with
    | word plain => cases found
    | phrase printed =>
      cases found
      rfl
  plain := by
    intro item none
    cases item with
    | word plain => exact ⟨plain, rfl⟩
    | phrase printed => cases none

end Item

namespace Slot

def phrases (slots : List (Slot Item)) : List Phrase := (words slots).filterMap Item.phrase?

def plainWords (slots : List (Slot Item)) : List (List Char) :=
  (words slots).filterMap Item.word?

theorem plainWords_eq (slots : List (Slot Item)) :
    ((words slots).filter (fun item => item.phrase?.isNone)).map Item.text = plainWords slots := by
  rw [plainWords, ← List.filterMap_eq_map, List.filterMap_filter]
  congr 1
  funext item
  cases item <;> rfl

theorem plain_of_mem_plainWords {slots : List (Slot Item)} {word : List Char}
    (member : word ∈ plainWords slots) : ∀ c ∈ word, isPlain c = true := by
  obtain ⟨item, _, found⟩ := List.mem_filterMap.mp member
  cases item with
  | word plain =>
    cases found
    exact plain.plain
  | phrase own => cases found

theorem hides_text {ω : Type} {spell : ω → List Char} {phrase? : ω → Option Phrase}
    (spelled : Spelled spell phrase?) {slots : List (Slot ω)} (apart : Apart slots) :
    Scanner.Hides {} (text spell slots) {} := by
  induction apart with
  | nil => exact .nil {}
  | gap c blank _ ih => exact (Scanner.hides_blank blank).append ih
  | last item => exact (spelled.hides item).append (.nil {})
  | word item c blank _ ih =>
    exact (spelled.hides item).append ((Scanner.hides_blank blank).append ih)

end Slot

/-- Without time expressions clauses keep their order in every list. -/
theorem Selector.addAll_inPasses (kind : Combinator) {phrases : List Phrase}
    (timeless : ∀ phrase ∈ phrases, phrase.clause.condition.isRelative = false) :
    ({ kind := kind } : Selector).addAll ((inPasses phrases 0 17).map Phrase.clause) =
      ({ kind := kind } : Selector).addAll (phrases.map Phrase.clause) := by
  apply Selector.ext_listed
  · rw [kind_addAll, kind_addAll]
  · rw [nested_addAll, nested_addAll]
  · rw [defined_addAll, defined_addAll]
  · intro family negated
    have ordered : (phrases.filter (fun phrase => phrase.clause.belongs family negated)).Pairwise
        (fun first second => first.place ≤ second.place) := by
      apply List.pairwise_of_forall_mem_list
      intro first left second right
      obtain ⟨listed, own⟩ := List.mem_filter.mp left
      obtain ⟨_, other⟩ := List.mem_filter.mp right
      simp only [Clause.belongs, decide_eq_true_eq] at own other
      rw [Phrase.place_eq, Phrase.place_eq]
      apply Condition.place_le (own.1.trans other.1.symm)
      intro late
      rw [timeless first listed] at late
      cases late
    rw [listed_addAll, listed_addAll, filter_belongs_inPasses family negated ordered]

namespace Text

theorem forall_unwords (holds : Char → Prop) (space : holds ' ') {words : List (List Char)}
    (own : ∀ word ∈ words, ∀ c ∈ word, holds c) : ∀ c ∈ unwords words, holds c := by
  fun_induction unwords words with
  | case1 => exact nofun
  | case2 word => exact own word List.mem_cons_self
  | case3 word rest _ ih =>
    obtain ⟨first, others⟩ := List.forall_mem_cons.mp own
    exact List.forall_mem_append.mpr ⟨first, List.forall_mem_cons.mpr ⟨space, ih others⟩⟩

end Text

/-- The selector that looks up words, with single spaces between them, in each of the fields. -/
def BareText.lookup (fields : List String) (words : List (List Char)) : Selector :=
  { kind := .anyOf
    clauses :=
      { likeFold :=
          ⟨fields.map (fun field => (field, String.ofList ('%' :: (Text.unwords words ++ ['%'])))),
            []⟩ } }

/-- Plain words hold no wildcards, so anything may stand around them. -/
theorem BareText.pattern_of_plain {words : List (List Char)}
    (plain : ∀ word ∈ words, ∀ c ∈ word, isPlain c = true) :
    pattern (String.ofList (Text.unwords words)) =
      String.ofList ('%' :: (Text.unwords words ++ ['%'])) := by
  have wildcardless : ∀ c ∈ Text.unwords words, (c == '%' || c == '_') = false := by
    apply Text.forall_unwords (fun c => (c == '%' || c == '_') = false) rfl
    intro word member c letter
    rw [Bool.or_eq_false_iff, beq_eq_false_iff_ne, beq_eq_false_iff_ne]
    exact ⟨Reader.ne_of_accepted (plain word member c letter) rfl,
      Reader.ne_of_accepted (plain word member c letter) rfl⟩
  have none : (Text.unwords words).any (fun c => c == '%' || c == '_') = false := by
    rw [List.any_eq_false]
    intro c member
    rw [wildcardless c member]
    exact Bool.false_ne_true
  rw [pattern, String.toList_ofList, none, if_neg Bool.false_ne_true]

namespace Compiler

variable (compiler : Compiler) (cls : EntityClass)

/-- What the stages leave is looked up in the fields for the class, if there is anything. -/
theorem bareSelector_search (handler : compiler.bareHandler = BareText.search)
    (fields : compiler.searchFields cls ≠ []) {rest : List Char} {words : List (List Char)}
    (left : Text.words rest = words) (plain : ∀ word ∈ words, ∀ c ∈ word, isPlain c = true) :
    compiler.bareSelector cls rest =
      if words.isEmpty then none else some (BareText.lookup (compiler.searchFields cls) words) := by
  cases words with
  | nil => exact compiler.bareSelector_of_words cls left
  | cons word others =>
    have joined : BareText.ofRest? rest = some (String.ofList (Text.unwords (word :: others))) := by
      rw [BareText.ofRest?, left]
    have full : (compiler.searchFields cls).isEmpty = false := List.isEmpty_eq_false_iff.mpr fields
    rw [bareSelector, joined, Option.bind_some, handler, BareText.search, full,
      BareText.pattern_of_plain plain]
    rfl

/-- A text of plain words and clauses without time expressions compiles to its clauses in their
order, and behind them to a selector that looks up its words. If there are no clauses but words,
only the latter is there; if there are no words, only the former. -/
theorem compile_mixed (handler : compiler.bareHandler = BareText.search)
    (fields : compiler.searchFields cls ≠ []) {slots : List (Slot Item)} (apart : Slot.Apart slots)
    (timeless : ∀ phrase ∈ Slot.phrases slots, phrase.clause.condition.isRelative = false) :
    compiler.compile (String.ofList (Slot.text Item.text slots)) cls =
      ⟨{ className := cls.name },
        (if (Slot.phrases slots).isEmpty && !(Slot.plainWords slots).isEmpty then []
          else [({ kind := .allOf } : Selector).addAll ((Slot.phrases slots).map Phrase.clause)]) ++
        (if (Slot.plainWords slots).isEmpty then []
          else [BareText.lookup (compiler.searchFields cls) (Slot.plainWords slots)])⟩ := by
  have undivided := Scanner.split_of_hides (Slot.hides_text Item.spelled apart)
  have free := Directive.extract_spelled Item.spelled apart cls.name
  obtain ⟨rest, run, words⟩ := Stage.runAll_spelled (compiler.embed
    (compiler.innerAt Selector.simplify compiler.maxDepth cls)) Item.spelled apart
      { kind := .allOf }
  rw [← Slot.phrases, Selector.addAll_inPasses .allOf timeless] at run
  rw [Slot.plainWords_eq] at words
  have bare := compiler.bareSelector_search cls handler fields words
    (fun _ => Slot.plain_of_mem_plainWords)
  rw [compiler.compile_undivided cls undivided free run, bare, Selector.isEmpty_addAll,
    List.isEmpty_map]
  cases (Slot.plainWords slots).isEmpty <;> rfl

end Compiler

/-- The text `straße [x] n>=-7 limit  m!="b limit:3"`, whose directive is part of a string. -/
def Slot.mixedSample : List (Slot Item) :=
  [.word (.word (.ofLetters "straße".toList (by decide) (by decide +kernel))), .gap ' ',
   .word (.phrase ⟨false, .truthy ⟨['x'], by decide, rfl⟩⟩), .gap ' ',
   .word (.phrase ⟨false, .onField ⟨['n'], by decide, rfl⟩ (.number true (-7) (by decide))⟩),
   .gap '\n',
   .word (.word (.ofLetters "limit".toList (by decide) (by decide +kernel))), .gap ' ', .gap '\t',
   .word (.phrase ⟨true, .onField ⟨['m'], by decide, rfl⟩ (.equal "b limit:3".toList)⟩)]

theorem Compiler.compile_mixed_sample :
    ({} : Compiler).bareHandler = BareText.search ∧
      ({} : Compiler).searchFields ⟨"User", []⟩ ≠ [] ∧ Slot.Apart Slot.mixedSample ∧
      (∀ phrase ∈ Slot.phrases Slot.mixedSample, phrase.clause.condition.isRelative = false) ∧
      ({} : Compiler).compile (String.ofList (Slot.text Item.text Slot.mixedSample)) ⟨"User", []⟩ =
        ⟨{ className := "User" },
          [{ kind := .allOf
             clauses :=
              { truthy := ⟨["x"], []⟩
                greaterEq := ⟨[.absolute "n" (.whole (-7) (by decide))], []⟩
                equal := ⟨[], [("m", .string "b limit:3")]⟩ } },
           { kind := .anyOf, clauses := { likeFold := ⟨[("name", "%straße limit%")], []⟩ } }]⟩ := by
  have fields : ({} : Compiler).searchFields ⟨"User", []⟩ ≠ [] := List.cons_ne_nil _ _
  have apart : Slot.Apart Slot.mixedSample :=
    .word _ _ rfl (.word _ _ rfl (.word _ _ rfl (.word _ _ rfl (.gap _ rfl (.last _)))))
  have timeless : ∀ phrase ∈ Slot.phrases Slot.mixedSample,
      phrase.clause.condition.isRelative = false := by
    have shown : (Slot.phrases Slot.mixedSample).all
        (fun phrase => !phrase.clause.condition.isRelative) = true := by decide +kernel
    intro phrase member
    exact (Bool.not_eq_true' _).mp (List.all_eq_true.mp shown phrase member)
  refine ⟨rfl, fields, apart, timeless, ?_⟩
  rw [Compiler.compile_mixed {} ⟨"User", []⟩ rfl fields apart timeless]
  rfl

end SelectorLang
