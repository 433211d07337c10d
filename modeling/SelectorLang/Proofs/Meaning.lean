import Mathlib.Data.List.Basic
import SelectorLang.Proofs.Assembly
import SelectorLang.Selector.Equality

set_option autoImplicit false

namespace SelectorLang

/-- Whether a node holds, given the truths of its clauses. -/
def Combinator.combine : Combinator → List Bool → Bool
  | .allOf, truths => truths.all id
  | .anyOf, truths => truths.any id
  | .noneOf, truths => truths.all not
  | .notAllOf, truths => truths.any not

theorem Combinator.combine_singleton {kind : Combinator} (positive : kind.negates = false)
    (truth : Bool) : kind.combine [truth] = truth := by
  cases kind with
  | allOf => exact Bool.and_true truth
  | anyOf => exact Bool.or_false truth
  | noneOf => cases positive
  | notAllOf => cases positive

def Family.plain : List Family :=
  [.guid, .tag, .truthy, .equal, .contain, .regex, .regexFold, .like, .likeFold,
    .compare .greater, .compare .greaterEq, .compare .less, .compare .lessEq, .reference]

/-- An assignment of truth to clauses, positive and negated ones apart. -/
structure Reading (Entity : Type) where
  clause : Entity → Bool → Condition → Bool
  defined : Entity → Bool → String → Bool
  /-- The truth of a reference by its field, given the options of its query and where that holds. -/
  reference : Entity → Bool → String → Options → (Entity → Bool) → Bool

namespace Reading

variable {Entity : Type} (reading : Reading Entity)

def plain (clauses : Clauses) (entity : Entity) : List Bool :=
  [false, true].flatMap (fun negated =>
    (clauses.defined.side negated).map (reading.defined entity negated) ++
      Family.plain.flatMap (fun family =>
        (({ kind := .allOf, clauses := clauses } : Selector).listed family negated).map
          (reading.clause entity negated)))

end Reading

mutual

def Selector.holds {Entity : Type} (reading : Reading Entity) : Selector → Entity → Bool
  | ⟨kind, clauses, ⟨subqueries, notSubqueries⟩, ⟨nested, notNested⟩⟩ => fun entity =>
    kind.combine (reading.plain clauses entity ++
      Query.judgements reading false subqueries entity ++
      Query.judgements reading true notSubqueries entity ++
      (Selector.verdicts reading notNested entity).map not ++
      Selector.verdicts reading nested entity)
termination_by structural selector => selector

/-- Whether the query holds of the entity: all its selectors do. -/
def Query.holds {Entity : Type} (reading : Reading Entity) : Query → Entity → Bool
  | ⟨_, selectors⟩ => fun entity => (Selector.verdicts reading selectors entity).all id
termination_by structural query => query

def Selector.verdicts {Entity : Type} (reading : Reading Entity) :
    List Selector → Entity → List Bool
  | [] => fun _ => []
  | selector :: others => fun entity =>
    selector.holds reading entity :: Selector.verdicts reading others entity
termination_by structural selectors => selectors

def Query.judgements {Entity : Type} (reading : Reading Entity) (negated : Bool) :
    List (String × Query) → Entity → List Bool
  | [] => fun _ => []
  | (field, query) :: others => fun entity =>
    reading.reference entity negated field query.options (query.holds reading) ::
      Query.judgements reading negated others entity
termination_by structural entries => entries

end

variable {Entity : Type} (reading : Reading Entity)

/-- The truth of a clause, references included. -/
def Reading.truth (negated : Bool) (entity : Entity) : Condition → Bool
  | .subquery field query =>
    reading.reference entity negated field query.options (query.holds reading)
  | condition => reading.clause entity negated condition

theorem Query.holds_eq (query : Query) (entity : Entity) :
    query.holds reading entity =
      query.selectors.all (fun selector => selector.holds reading entity) := by
  have verdicts : ∀ selectors : List Selector, (Selector.verdicts reading selectors entity).all id =
      selectors.all (fun selector => selector.holds reading entity) := by
    intro selectors
    induction selectors with
    | nil => rfl
    | cons selector others ih => simp only [Selector.verdicts, List.all_cons, ih, id]
  obtain ⟨options, selectors⟩ := query
  exact verdicts selectors

namespace Selector

theorem verdicts_eq_map (selectors : List Selector) (entity : Entity) :
    verdicts reading selectors entity =
      selectors.map (fun selector => selector.holds reading entity) := by
  induction selectors with
  | nil => rfl
  | cons selector others ih => simp only [verdicts, ih, List.map_cons]

theorem judgements_eq_map (negated : Bool) (entries : List (String × Query)) (entity : Entity) :
    Query.judgements reading negated entries entity =
      entries.map (fun entry =>
        reading.truth negated entity (.subquery entry.1 entry.2)) := by
  induction entries with
  | nil => rfl
  | cons entry others ih => simp only [Query.judgements, ih, List.map_cons, Reading.truth]

def truths (selector : Selector) (entity : Entity) : List Bool :=
  reading.plain selector.clauses entity ++
    [false, true].flatMap (fun negated =>
      (selector.listed .subquery negated).map (reading.truth negated entity)) ++
    (selector.nested.negative.map (fun child => !child.holds reading entity)) ++
    selector.nested.positive.map (fun child => child.holds reading entity)

theorem holds_eq (selector : Selector) (entity : Entity) :
    selector.holds reading entity = selector.kind.combine (selector.truths reading entity) := by
  obtain ⟨kind, clauses, ⟨subqueries, notSubqueries⟩, ⟨nested, notNested⟩⟩ := selector
  simp only [holds, truths, verdicts_eq_map, judgements_eq_map, listed, Signed.side, List.map_map,
    List.flatMap_cons, List.flatMap_nil, List.append_nil, Bool.false_eq_true, ↓reduceIte,
    Function.comp_def, List.append_assoc]

/-- Every clause counts once, a nested selector among them. -/
theorem length_truths (selector : Selector) (entity : Entity) :
    (selector.truths reading entity).length = selector.clauseCount := by
  simp only [truths, Reading.plain, Family.plain, clauseCount, Clauses.count, Signed.size, listed,
    Clauses.compared, Signed.side, List.flatMap_cons, List.flatMap_nil, List.length_append,
    List.length_map, List.length_nil, Bool.false_eq_true, ↓reduceIte]
  omega

/-- A positive node with nothing but one node under it means what that node means. -/
theorem holds_simplify (selector : Selector) :
    selector.simplify.holds reading = selector.holds reading := by
  by_cases single : ∃ child, selector.Wraps child
  · obtain ⟨child, wraps⟩ := single
    obtain ⟨only, positive, count⟩ := wraps
    funext entity
    obtain ⟨others, last⟩ : ∃ others, selector.truths reading entity =
        others ++ [child.holds reading entity] := by
      rw [truths, only]
      exact ⟨_, rfl⟩
    have none : others = [] := by
      have size := selector.length_truths reading entity
      rw [last, count, List.length_append, List.length_singleton] at size
      exact List.eq_nil_of_length_eq_zero (by omega)
    rw [simplify_of_wraps ⟨only, positive, count⟩, holds_eq reading selector, last, none,
      List.nil_append, Combinator.combine_singleton positive]
  · rw [simplify_of_not_wraps (fun child wraps => single ⟨child, wraps⟩)]

/-- Simplifying makes no node empty that was not, as long as none under it is. -/
theorem isEmpty_simplify {selector : Selector}
    (children : ∀ child ∈ selector.nested.positive, child.isEmpty = false) :
    selector.simplify.isEmpty = selector.isEmpty := by
  by_cases single : ∃ child, selector.Wraps child
  · obtain ⟨child, wraps⟩ := single
    have full : selector.isEmpty = false := by
      rw [isEmpty, wraps.2.2]
      rfl
    rw [simplify_of_wraps wraps, full]
    apply children child
    rw [wraps.1]
    exact List.mem_singleton_self child
  · rw [simplify_of_not_wraps (fun child wraps => single ⟨child, wraps⟩)]

/-- Two selectors whose lists a reading cannot tell apart. -/
structure Alike (left right : Selector) : Prop where
  kind : left.kind = right.kind
  defined : left.clauses.defined = right.clauses.defined
  listed : ∀ family negated entity,
    (left.listed family negated).map (reading.truth negated entity) =
      (right.listed family negated).map (reading.truth negated entity)
  positive : left.nested.positive.map (Selector.holds reading) =
    right.nested.positive.map (Selector.holds reading)
  negative : left.nested.negative.map (Selector.holds reading) =
    right.nested.negative.map (Selector.holds reading)

end Selector

theorem Reading.truth_of_plain {condition : Condition} (plain : condition.family ≠ .subquery)
    (negated : Bool) (entity : Entity) :
    reading.truth negated entity condition = reading.clause entity negated condition := by
  cases condition with
  | subquery => exact absurd rfl plain
  | _ => rfl

/-- The truths of the plain clauses, by the lists of the selector that holds them. -/
theorem Reading.plain_eq (selector : Selector) (entity : Entity) :
    reading.plain selector.clauses entity =
      [false, true].flatMap (fun negated =>
        (selector.clauses.defined.side negated).map (reading.defined entity negated) ++
          Family.plain.flatMap (fun family =>
            (selector.listed family negated).map (reading.truth negated entity))) := by
  have lists : ∀ negated, ∀ family ∈ Family.plain,
      (({ kind := .allOf, clauses := selector.clauses } : Selector).listed family negated).map
          (reading.clause entity negated) =
        (selector.listed family negated).map (reading.truth negated entity) := by
    intro negated family member
    have plain : family ≠ .subquery := by
      rintro rfl
      exact absurd member (by decide)
    have same : ({ kind := .allOf, clauses := selector.clauses } : Selector).listed family negated =
        selector.listed family negated := by
      cases family with
      | subquery => exact absurd rfl plain
      | _ => rfl
    rw [same]
    apply List.map_congr_left
    intro condition listed
    rw [← Selector.family_of_mem listed] at plain
    exact (reading.truth_of_plain plain negated entity).symm
  rw [Reading.plain]
  apply List.flatMap_congr
  intro negated _
  rw [List.flatMap_congr (lists negated)]

namespace Selector

namespace Alike

variable {reading} {left right : Selector}

theorem truths (alike : left.Alike reading right) (entity : Entity) :
    left.truths reading entity = right.truths reading entity := by
  have positive := congrArg (List.map (fun holds => holds entity)) alike.positive
  have negative := congrArg (List.map (fun holds => !holds entity)) alike.negative
  simp only [List.map_map, Function.comp_def] at positive negative
  simp only [Selector.truths, reading.plain_eq, alike.defined, alike.listed, positive, negative]

theorem holds (alike : left.Alike reading right) :
    left.holds reading = right.holds reading := by
  funext entity
  rw [holds_eq, holds_eq, alike.kind, alike.truths]

theorem isEmpty (alike : left.Alike reading right) (entity : Entity) :
    left.isEmpty = right.isEmpty := by
  rw [Selector.isEmpty, Selector.isEmpty, ← left.length_truths reading entity,
    ← right.length_truths reading entity, alike.truths]

theorem nest (alike : left.Alike reading right) {lefts rights : List Selector}
    (children : lefts.map (Selector.holds reading) = rights.map (Selector.holds reading)) :
    (left.nest lefts).Alike reading (right.nest rights) := by
  refine ⟨alike.kind, alike.defined, alike.listed, ?_, alike.negative⟩
  simp only [Selector.nest, List.map_append, alike.positive, children]

end Alike

end Selector

/-- What a reading can tell of a query. -/
def Query.seen (query : Query) : Options × (Entity → Bool) := (query.options, query.holds reading)

def Clause.seen (clause : Clause) : Family × Bool × (Entity → Bool) :=
  (clause.condition.family, clause.negated,
    fun entity => reading.truth clause.negated entity clause.condition)

variable {reading}

/-- What is seen of clauses decides what is seen of each list they go to. -/
theorem Clause.truths_of_seen {first second : List Clause}
    (seen : first.map (Clause.seen reading) = second.map (Clause.seen reading)) (family : Family)
    (negated : Bool) (entity : Entity) :
    ((first.filter (·.belongs family negated)).map Clause.condition).map
        (reading.truth negated entity) =
      ((second.filter (·.belongs family negated)).map Clause.condition).map
        (reading.truth negated entity) := by
  have view : ∀ clauses : List Clause,
      ((clauses.filter (·.belongs family negated)).map Clause.condition).map
          (reading.truth negated entity) =
        ((clauses.map (Clause.seen reading)).filter
          (fun item => item.1 = family ∧ item.2.1 = negated)).map
            (fun item => item.2.2 entity) := by
    intro clauses
    rw [List.filter_map, List.map_map, List.map_map]
    apply List.map_congr_left
    intro clause member
    have own := (List.mem_filter.mp member).2
    rw [Clause.belongs, decide_eq_true_eq] at own
    rw [Function.comp_apply, Function.comp_apply, Clause.seen, own.2]
  rw [view, view, seen]

theorem Selector.Alike.addAll {left right : Selector} (alike : left.Alike reading right)
    {first second : List Clause}
    (seen : first.map (Clause.seen reading) = second.map (Clause.seen reading)) :
    (left.addAll first).Alike reading (right.addAll second) := by
  constructor
  · rw [kind_addAll, kind_addAll, alike.kind]
  · rw [defined_addAll, defined_addAll, alike.defined]
  · intro family negated entity
    rw [listed_addAll, listed_addAll, List.map_append, List.map_append,
      alike.listed family negated entity, Clause.truths_of_seen seen]
  · rw [nested_addAll, nested_addAll, alike.positive]
  · rw [nested_addAll, nested_addAll, alike.negative]

/-- What the token of a reference says before a query is made for it. -/
structure Mention where
  negated : Bool
  field : String
  className : List Char
  text : List Char

def Mention.clause (embed : List Char → List Char → Option Query) (mention : Mention) :
    Option Clause :=
  (embed mention.className mention.text).map
    (fun query => ⟨mention.negated, .subquery mention.field query⟩)

namespace Clause

open Reader

def mention : Reader Mention := do
  let (field, negated) ← target
  exactly ['<', '\x7b']
  let body ← escapedRun1 (· == '\x7d')
  exactly ['\x7d', '>']
  if isIdentifier body then failure
  else pure ⟨negated, field, (bodyParts body).1, (bodyParts body).2⟩

/-- Which tokens are references does not depend on the queries that are made for them. -/
theorem subquery_eq_map (embed : List Char → List Char → Option Query) :
    subquery embed = Mention.clause embed <$> mention := by
  funext text
  simp only [subquery, mention, map_apply, bind_apply]
  cases target text with
  | none => rfl
  | some front =>
    simp only [Option.bind_some]
    cases exactly ['<', '\x7b'] front.2 with
    | none => rfl
    | some opened =>
      simp only [Option.bind_some]
      cases escapedRun1 (· == '\x7d') opened.2 with
      | none => rfl
      | some body =>
        simp only [Option.bind_some]
        cases exactly ['\x7d', '>'] body.2 with
        | none => rfl
        | some closed =>
          simp only [Option.bind_some]
          split <;> rfl

end Clause

def Piece.map {α β : Type} (f : α → β) : Piece α → Piece β
  | .other c => .other c
  | .token lexeme value => .token lexeme (f value)

theorem Piece.rest_map {α β : Type} (f : α → β) (pieces : List (Piece α)) :
    rest (pieces.map (Piece.map f)) = rest pieces := by
  induction pieces with
  | nil => rfl
  | cons piece pieces ih => cases piece <;> simp only [List.map_cons, Piece.map, rest, ih]

theorem Piece.values_map {α β : Type} (f : α → β) (pieces : List (Piece α)) :
    values (pieces.map (Piece.map f)) = (values pieces).map f := by
  induction pieces with
  | nil => rfl
  | cons piece pieces ih => cases piece <;> simp only [List.map_cons, Piece.map, values, ih]

namespace Token

variable {α β : Type}

theorem readAt_map (f : α → β) (reader : Reader α) (text : List Char) :
    readAt (f <$> reader) text = (readAt reader text).map (fun found => (found.1, f found.2)) := by
  simp only [readAt, Reader.map_apply]
  cases reader text with
  | none => rfl
  | some found =>
    simp only [Option.map_some]
    split <;> rfl

/-- A scan with a reader that answers otherwise finds the same tokens. -/
theorem scanFrom_map (f : α → β) (reader : Reader α) (literals : List Span) (text : List Char)
    (skip offset : Nat) (start : Bool) :
    scanFrom (f <$> reader) literals skip offset start text =
      (scanFrom reader literals skip offset start text).map (Piece.map f) := by
  induction text generalizing skip offset start with
  | nil => rfl
  | cons c rest ih =>
    cases skip with
    | succ skip => simp only [scanFrom, ih]
    | zero =>
      simp only [scanFrom, readAt_map]
      cases ready : (start && !literals.any (fun literal => literal.strictlyInside offset)) with
      | false => simp only [Bool.false_eq_true, ↓reduceIte, ih, List.map_cons, Piece.map]
      | true =>
        cases readAt reader (c :: rest) with
        | none => simp only [↓reduceIte, Option.map_none, ih, List.map_cons, Piece.map]
        | some found => simp only [↓reduceIte, Option.map_some, ih, List.map_cons, Piece.map]

end Token

namespace Stage

def mentions (text : List Char) : List Mention := Piece.values (Token.scan Clause.mention text)

def unmentioned (text : List Char) : List Char := Piece.rest (Token.scan Clause.mention text)

/-- The passes behind the one for references; they make no queries. -/
def laterPasses : List Pass := (placed (all (fun _ _ => none))).tail

theorem placed_all (embed : List Char → List Char → Option Query) :
    placed (all embed) = ⟨"qref", 0, Clause.subquery embed⟩ :: laterPasses := rfl

/-- The references of a text come first and are the only clauses that depend on the queries made
for them. -/
theorem runAll_all (embed : List Char → List Char → Option Query) (text : List Char)
    (selector : Selector) :
    runAll (all embed) text selector =
      (Pass.restAll laterPasses (unmentioned text),
        selector.addAll ((mentions text).filterMap (Mention.clause embed) ++
          (Pass.claimsAll laterPasses (unmentioned text)).filterMap Claim.clause)) := by
  have scanned : Token.scan (Clause.subquery embed) text =
      (Token.scan Clause.mention text).map (Piece.map (Mention.clause embed)) := by
    rw [Clause.subquery_eq_map]
    exact Token.scanFrom_map _ _ _ _ _ _ _
  have first := Pass.runPass_eq ⟨"qref", 0, Clause.subquery embed⟩ text
  simp only [runPass, scanned, Piece.rest_map, Piece.values_map, List.filterMap_map, Prod.mk.injEq]
    at first
  rw [runAll_eq, placed_all, Pass.restAll_cons, Pass.claimsAll, List.filterMap_append, ← first.1,
    ← first.2]
  rfl

end Stage

/-- The handler answers with nothing or with a selector that has clauses. -/
def BareHandler.Nonempty (handler : BareHandler) : Prop :=
  ∀ text cls fields selector, handler text cls fields = some selector → selector.isEmpty = false

namespace Compiler

variable {compiler : Compiler}

/-- Two ways of compiling what stands deeper that a reading cannot tell apart. -/
structure Inner.Agree (reading : Reading Entity) (left right : Inner) : Prop where
  group : ∀ group, (left.group group).map (Selector.holds reading) =
    (right.group group).map (Selector.holds reading)
  query : ∀ target text, (left.query target text).map (Query.seen reading) =
    (right.query target text).map (Query.seen reading)
  nonempty : ∀ group selector, left.group group = some selector → selector.isEmpty = false

theorem embed_agree (compiler : Compiler) {left right : Inner} (agree : left.Agree reading right)
    (className text : List Char) :
    (compiler.embed left className text).map (Query.seen reading) =
      (compiler.embed right className text).map (Query.seen reading) := by
  rw [embed, embed]
  cases compiler.class? (String.ofList className) with
  | none => rfl
  | some target => exact agree.query target text

theorem seen_mention {left right : Inner} (agree : left.Agree reading right) (mention : Mention) :
    (mention.clause (compiler.embed left)).map (Clause.seen reading) =
      (mention.clause (compiler.embed right)).map (Clause.seen reading) := by
  have same := embed_agree compiler agree mention.className mention.text
  have view : ∀ made : Option Query,
      (made.map (fun query => (⟨mention.negated, .subquery mention.field query⟩ : Clause))).map
          (Clause.seen reading) =
        (made.map (Query.seen reading)).map (fun item => (Family.subquery, mention.negated,
          fun entity => reading.reference entity mention.negated mention.field item.1 item.2)) := by
    intro made
    cases made <;> rfl
  rw [Mention.clause, Mention.clause, view, view, same]

/-- Filling a node leaves the same text, and selectors that a reading cannot tell apart. -/
theorem fill_agree (compiler : Compiler) {left right : Inner} (agree : left.Agree reading right)
    (kind : Combinator) (groups : List Group) (text : List Char) :
    (compiler.fill left kind groups text).1 = (compiler.fill right kind groups text).1 ∧
      (compiler.fill left kind groups text).2.Alike reading
        (compiler.fill right kind groups text).2 := by
  rw [fill, fill, Stage.runAll_all, Stage.runAll_all]
  refine ⟨rfl, ?_⟩
  apply Selector.Alike.addAll
  · have bare : ({ kind := kind } : Selector).Alike reading { kind := kind } :=
      ⟨rfl, rfl, fun _ _ _ => rfl, rfl, rfl⟩
    apply bare.nest
    simp only [List.map_filterMap, agree.group]
  · simp only [List.map_append, List.map_filterMap, seen_mention agree]

theorem isEmpty_of_bare (handler : compiler.bareHandler.Nonempty) (cls : EntityClass)
    (rest : List Char) :
    ∀ selector ∈ (compiler.bareSelector cls rest).toList, selector.isEmpty = false := by
  intro selector member
  obtain ⟨text, answer⟩ := answer_of_bareSelector (Option.mem_toList.mp member)
  exact handler text cls _ selector answer

/-- Compiling a group with and without simplifying drops it or makes selectors of one meaning. -/
theorem groupWith_agree (handler : compiler.bareHandler.Nonempty) (entity : Entity)
    {left right : Inner} (agree : left.Agree reading right) (cls : EntityClass) (group : Group) :
    (compiler.groupWith Selector.simplify left cls group).map (Selector.holds reading) =
        (compiler.groupWith id right cls group).map (Selector.holds reading) ∧
      ∀ selector, compiler.groupWith Selector.simplify left cls group = some selector →
        selector.isEmpty = false := by
  obtain ⟨texts, alike⟩ := fill_agree compiler agree group.kind
    (split group.body).groups (split group.body).remainder
  have nested := nested_fill compiler left group.kind (split group.body).groups
    (split group.body).remainder
  simp only [groupWith]
  generalize compiler.fill left group.kind (split group.body).groups
    (split group.body).remainder = result at texts alike nested ⊢
  generalize compiler.fill right group.kind (split group.body).groups
    (split group.body).remainder = other at texts alike ⊢
  obtain ⟨rest, filled⟩ := result
  obtain ⟨_, plain⟩ := other
  simp only at texts alike nested ⊢
  subst texts
  have both : (filled.nest (compiler.bareSelector cls rest).toList).Alike reading
      (plain.nest (compiler.bareSelector cls rest).toList) :=
    alike.nest rfl
  have children : ∀ child ∈ (filled.nest (compiler.bareSelector cls rest).toList).nested.positive,
      child.isEmpty = false := by
    intro child member
    simp only [Selector.nest, nested, List.mem_append, List.mem_filterMap] at member
    rcases member with ⟨inner, _, answer⟩ | spoken
    · exact agree.nonempty inner child answer
    · exact isEmpty_of_bare handler cls rest child spoken
  rw [← both.isEmpty entity]
  split
  · refine ⟨rfl, ?_⟩
    intro selector made
    cases made
  · rename_i full
    rw [Bool.not_eq_true] at full
    refine ⟨?_, ?_⟩
    · rw [Option.map_some, Option.map_some, Selector.holds_simplify, both.holds, id]
    · intro selector made
      rw [← Option.some.inj made, Selector.isEmpty_simplify children, full]

/-- Compiling a query with and without simplifying makes queries of one meaning. -/
theorem queryWith_agree (compiler : Compiler) (entity : Entity) {left right : Inner}
    (agree : left.Agree reading right) (cls : EntityClass) (text : List Char) :
    (compiler.queryWith Selector.simplify left cls text).seen reading =
      (compiler.queryWith id right cls text).seen reading := by
  obtain ⟨texts, alike⟩ := fill_agree compiler agree .allOf (split text).groups
    (Directive.extract (split text).remainder { className := cls.name }).1
  have nested := nested_fill compiler left .allOf (split text).groups
    (Directive.extract (split text).remainder { className := cls.name }).1
  simp only [queryWith]
  generalize compiler.fill left .allOf (split text).groups
    (Directive.extract (split text).remainder { className := cls.name }).1 = result
    at texts alike nested ⊢
  generalize compiler.fill right .allOf (split text).groups
    (Directive.extract (split text).remainder { className := cls.name }).1 = other at texts alike ⊢
  obtain ⟨rest, filled⟩ := result
  obtain ⟨_, plain⟩ := other
  simp only at texts alike nested ⊢
  subst texts
  have children : ∀ child ∈ filled.nested.positive, child.isEmpty = false := by
    intro child member
    rw [nested] at member
    obtain ⟨inner, _, answer⟩ := List.mem_filterMap.mp member
    exact agree.nonempty inner child answer
  have same : filled.simplify.holds reading = plain.holds reading := by
    rw [Selector.holds_simplify, alike.holds]
  rw [Query.seen, Query.seen, Selector.isEmpty_simplify children, alike.isEmpty entity, id,
    Prod.mk.injEq]
  refine ⟨rfl, ?_⟩
  funext other
  rw [Query.holds_eq, Query.holds_eq]
  split
  · rfl
  · simp only [List.all_append, List.all_cons, List.all_nil, same]

theorem innerAt_agree (handler : compiler.bareHandler.Nonempty) (entity : Entity)
    (reading : Reading Entity) (depth : Nat) (cls : EntityClass) :
    (compiler.innerAt Selector.simplify depth cls).Agree reading
      (compiler.innerAt id depth cls) := by
  induction depth generalizing cls with
  | zero => exact ⟨fun _ => rfl, fun _ _ => rfl, fun _ _ => nofun⟩
  | succ below ih =>
    have groups := groupWith_agree handler entity (ih cls) cls
    constructor
    · intro group
      simp only [innerAt]
      exact (groups group).1
    · intro target text
      simp only [innerAt, Option.map_some, queryWith_agree compiler entity (ih target)]
    · intro group
      simp only [innerAt]
      exact (groups group).2

/-- A compiled query holds of just the entities of which the query holds that is compiled without
simplifying any selector, whatever its clauses mean. -/
theorem holds_compile (compiler : Compiler) (handler : compiler.bareHandler.Nonempty)
    {Entity : Type} (reading : Reading Entity) (text : String) (cls : EntityClass)
    (entity : Entity) :
    (compiler.compile text cls).holds reading entity =
      (compiler.queryAt id compiler.maxDepth cls text.toList).holds reading entity := by
  have seen := queryWith_agree compiler entity
    (innerAt_agree handler entity reading compiler.maxDepth cls) cls text.toList
  rw [Query.seen, Query.seen, Prod.mk.injEq] at seen
  rw [compile, queryAt, queryAt, seen.2]

end Compiler

theorem BareText.search_nonempty : BareText.search.Nonempty :=
  fun text cls fields selector answer => (search_normal text cls fields selector answer).1

def Reading.tagged : Reading (List String) where
  clause tags negated condition :=
    match condition with
    | .tag name => tags.contains name != negated
    | _ => negated
  defined _ negated _ := negated
  reference _ negated _ _ _ := negated

namespace Compiler

def eitherTag : Selector := { kind := .anyOf, clauses := { tag := ⟨["a", "b"], []⟩ } }

def eitherText : List Char := "(| <a> <b>)".toList

/-- A group that is all of a text is not nested in the compiled query, and means the same. -/
theorem holds_compile_either :
    ({} : Compiler).bareHandler.Nonempty ∧
      ({} : Compiler).compile (String.ofList eitherText) ⟨"User", []⟩ =
        ⟨{ className := "User" }, [eitherTag]⟩ ∧
      ({} : Compiler).queryAt id 32 ⟨"User", []⟩ eitherText =
        ⟨{ className := "User" }, [{ kind := .allOf, nested := ⟨[eitherTag], []⟩ }]⟩ ∧
      (({} : Compiler).compile (String.ofList eitherText) ⟨"User", []⟩).holds .tagged ["b"] =
        (({} : Compiler).queryAt id 32 ⟨"User", []⟩ (String.ofList eitherText).toList).holds
          .tagged ["b"] := by
  have simplified : ({} : Compiler).queryAt Selector.simplify 32 ⟨"User", []⟩ eitherText =
      ⟨{ className := "User" }, [eitherTag]⟩ := by
    decide +kernel
  refine ⟨BareText.search_nonempty, ?_, by decide +kernel, ?_⟩
  · rw [compile, String.toList_ofList]
    exact simplified
  · exact holds_compile {} BareText.search_nonempty .tagged (String.ofList eitherText)
      ⟨"User", []⟩ ["b"]

end Compiler

end SelectorLang
