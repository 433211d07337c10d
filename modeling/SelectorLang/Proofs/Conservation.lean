import SelectorLang.Compiler
import SelectorLang.Proofs.Passes

set_option autoImplicit false

namespace SelectorLang

/-- Texts that passes leave one after the other. Each pass divides its text into tokens and single
characters, puts a space for every token, and so takes the words of the tokens out. -/
inductive Cuts : List Pass → List Char → List Claim → List Char → Prop
  | done (text : List Char) : Cuts [] text [] text
  | pass (pass : Pass) {others : List Pass} {text rest : List Char} {claims later : List Claim}
      (pieces : List (Piece (Option Clause))) (source : pieces.flatMap Piece.source = text)
      (tokens : claims =
        (Piece.tokens pieces).map (fun token => ⟨pass.stage, pass.place, token.1, token.2⟩))
      (words : Removal (Text.words text) (claims.map (fun claim => Text.words claim.lexeme))
        (Text.words (Piece.rest pieces)))
      (after : Cuts others (Piece.rest pieces) later rest) :
      Cuts (pass :: others) text (claims ++ later) rest

/-- All passes together take out as many runs of words as there are claims. -/
theorem Cuts.words {passes : List Pass} {text rest : List Char} {claims : List Claim}
    (cuts : Cuts passes text claims rest) :
    ∃ runs, Removal (Text.words text) runs (Text.words rest) ∧ runs.length = claims.length := by
  induction cuts with
  | done text => exact ⟨[], Removal.refl _, rfl⟩
  | pass pass pieces source tokens words after ih =>
    obtain ⟨runs, removal, count⟩ := ih
    obtain ⟨all, whole, total⟩ := words.trans removal
    refine ⟨all, whole, ?_⟩
    rw [total, count, List.length_map, List.length_append]

theorem Pass.cuts (passes : List Pass) (text : List Char)
    (dark : ∀ pass ∈ passes, pass.reader.Dark) :
    Cuts passes text (claimsAll passes text) (restAll passes text) := by
  induction passes generalizing text with
  | nil => exact .done text
  | cons pass others ih =>
    have later := ih (pass.rest text) (fun other member =>
      dark other (List.mem_cons_of_mem pass member))
    refine .pass pass (pass.pieces text) (Token.source_scan pass.reader text) rfl ?_ later
    have removal := Token.removal_scan (dark pass List.mem_cons_self) text
    rw [claims, List.map_map]
    exact removal

namespace Claim

structure IsSubquery (claim : Claim) (field : FieldName) (negated : Bool) (body : List Char) :
    Prop where
  stage : claim.stage = "qref"
  lexeme : claim.lexeme = Clause.subqueryText field negated body
  nonempty : body ≠ []
  units : Body (· == '\x7d') body

structure IsComparison (claim : Claim) (relation : Relation) (field : FieldName) (negated : Bool)
    (numeral : Number.Numeral) : Prop where
  stage : claim.stage = relation.stage
  /-- Numerals are read in the first pass of the stage. -/
  place : claim.place = 0
  lexeme : claim.lexeme = Clause.comparisonText relation field negated numeral
  plain : Clause.PlainNumeral numeral

end Claim

/-- The claims that say nothing: subqueries for a class that is not registered, or below the last
level, and numerals that are no number. -/
inductive Compiler.Drops (compiler : Compiler) (depth : Nat) (claim : Claim) : Prop
  | unknownClass (field : FieldName) (negated : Bool) (body : List Char)
      (spelled : claim.IsSubquery field negated body)
      (unknown : compiler.class? (String.ofList (Clause.bodyParts body).1) = none)
  | tooDeep (field : FieldName) (negated : Bool) (body : List Char)
      (spelled : claim.IsSubquery field negated body) (deep : compiler.maxDepth ≤ depth)
  | noNumber (relation : Relation) (field : FieldName) (negated : Bool) (numeral : Number.Numeral)
      (spelled : claim.IsComparison relation field negated numeral)
      (rejected : Number.ofOperand? numeral = none)

structure Conserves (compiler : Compiler) (depth : Nat) (stages : List Stage) (text : List Char)
    (selector : Selector) (claims : List Claim) (rest : List Char) (filled : Selector) : Prop where
  /-- Pass by pass, the text divides into tokens and the characters between them. -/
  cuts : Cuts (Stage.placed stages) text claims rest
  /-- The words that are left are the words of the text without one run for each claim. -/
  words : ∃ runs, Removal (Text.words text) runs (Text.words rest) ∧ runs.length = claims.length
  /-- What the claims say goes to the end of the lists in their order. -/
  lists : ∀ family negated, filled.listed family negated = selector.listed family negated ++
    ((claims.filterMap Claim.clause).filter (·.belongs family negated)).map Clause.condition
  /-- A stage says clauses of its own kinds only. -/
  own : ∀ claim ∈ claims, (∃ stage ∈ stages, claim.stage = stage.name) ∧
    ∀ clause, claim.clause = some clause → clause.condition.family.stage = claim.stage
  /-- The lists of other stages stay as they are. -/
  unchanged : ∀ family negated, (∀ stage ∈ stages, stage.name ≠ family.stage) →
    filled.listed family negated = selector.listed family negated
  frame : filled.kind = selector.kind ∧ filled.nested = selector.nested ∧
    filled.clauses.defined = selector.clauses.defined
  count : filled.clauseCount =
    selector.clauseCount + claims.countP (fun claim => claim.clause.isSome)
  /-- Every claim says one clause, save those that are dropped. -/
  dropped : ∀ claim ∈ claims, claim.clause = none ↔ compiler.Drops depth claim
  /-- An identifier is no subquery. -/
  references : ∀ claim ∈ claims, ∀ field negated body,
    claim.IsSubquery field negated body → Clause.isIdentifier body = false

namespace Relation

theorem stage_ne_subquery (relation : Relation) : relation.stage ≠ "qref" := by
  cases relation <;> decide

theorem stage_injective {first second : Relation} (same : first.stage = second.stage) :
    first = second := by
  cases first <;> cases second <;> first | rfl | exact absurd same (by decide)

end Relation

namespace Compiler

/-- The query for a class name is missing where the class is unknown, or below the last level. -/
theorem embed_eq_none_iff (compiler : Compiler) (depth : Nat) (cls : EntityClass)
    (className text : List Char) :
    compiler.embed (compiler.innerAt Selector.simplify (compiler.maxDepth - depth) cls) className
        text = none ↔
      compiler.class? (String.ofList className) = none ∨ compiler.maxDepth ≤ depth := by
  rw [embed]
  cases compiler.class? (String.ofList className) with
  | none => simp only [Option.bind_none, true_or]
  | some target =>
    rw [Option.bind_some]
    cases room : compiler.maxDepth - depth with
    | zero =>
      have deep : compiler.maxDepth ≤ depth := by omega
      simp only [innerAt, Inner.nothing, deep, or_true]
    | succ below =>
      have shallow : ¬compiler.maxDepth ≤ depth := by omega
      simp only [innerAt, reduceCtorEq, shallow, or_self]

end Compiler

namespace Claim

variable {claim : Claim} {field : FieldName} {negated : Bool} {after : List Char}

theorem IsSubquery.clause_eq {body : List Char} (spelled : claim.IsSubquery field negated body)
    {embed : List Char → List Char → Option Query}
    (read : Clause.subquery embed (claim.lexeme ++ after) = some (claim.clause, after)) :
    Clause.isIdentifier body = false ∧
      claim.clause = (embed (Clause.bodyParts body).1 (Clause.bodyParts body).2).map
        (fun query => ⟨negated, .subquery (String.ofList field.chars) query⟩) := by
  rw [spelled.lexeme, Clause.subquery_append embed field negated spelled.nonempty spelled.units]
    at read
  split at read
  · cases read
  · rename_i other
    rw [Bool.not_eq_true] at other
    rw [Option.some.injEq, Prod.mk.injEq] at read
    exact ⟨other, read.1.symm⟩

/-- A subquery says nothing where its query is missing. -/
theorem IsSubquery.drops_iff {compiler : Compiler} {depth : Nat} {body : List Char}
    (spelled : claim.IsSubquery field negated body) {embed : List Char → List Char → Option Query}
    (missing : ∀ className text, embed className text = none ↔
      compiler.class? (String.ofList className) = none ∨ compiler.maxDepth ≤ depth)
    (read : Clause.subquery embed (claim.lexeme ++ after) = some (claim.clause, after)) :
    claim.clause = none ↔ compiler.Drops depth claim := by
  have silent_iff : ∀ {field negated body}, claim.IsSubquery field negated body →
      (claim.clause = none ↔ compiler.class? (String.ofList (Clause.bodyParts body).1) = none ∨
        compiler.maxDepth ≤ depth) := by
    intro field negated body spelled
    rw [(spelled.clause_eq read).2, Option.map_eq_none_iff, missing]
  constructor
  · intro silent
    rcases (silent_iff spelled).mp silent with unknown | deep
    · exact .unknownClass field negated body spelled unknown
    · exact .tooDeep field negated body spelled deep
  · intro drops
    cases drops with
    | unknownClass _ _ _ same unknown => exact (silent_iff same).mpr (Or.inl unknown)
    | tooDeep _ _ _ same deep => exact (silent_iff same).mpr (Or.inr deep)
    | noNumber relation _ _ _ same =>
      exact absurd (same.stage.symm.trans spelled.stage) relation.stage_ne_subquery

theorem IsComparison.clause_eq {relation : Relation} {numeral : Number.Numeral}
    (spelled : claim.IsComparison relation field negated numeral)
    (ends : Token.endsWord after = true)
    (read : Clause.absolute relation (claim.lexeme ++ after) = some (claim.clause, after)) :
    claim.clause = (Number.ofOperand? numeral).map (fun number =>
      ⟨negated, .compare relation (.absolute (String.ofList field.chars) number)⟩) := by
  rw [spelled.lexeme, Clause.absolute_append relation field negated spelled.plain ends,
    Option.some.injEq, Prod.mk.injEq] at read
  exact read.1.symm

/-- A comparison says nothing where its numeral is no number. -/
theorem IsComparison.drops_iff {compiler : Compiler} {depth : Nat} {relation : Relation}
    {numeral : Number.Numeral} (spelled : claim.IsComparison relation field negated numeral)
    (ends : Token.endsWord after = true)
    (read : Clause.absolute relation (claim.lexeme ++ after) = some (claim.clause, after)) :
    claim.clause = none ↔ compiler.Drops depth claim := by
  have noSubquery : claim.stage ≠ "qref" := by
    rw [spelled.stage]
    exact relation.stage_ne_subquery
  constructor
  · intro silent
    rw [spelled.clause_eq ends read, Option.map_eq_none_iff] at silent
    exact .noNumber relation field negated numeral spelled silent
  · intro drops
    cases drops with
    | unknownClass _ _ _ same => exact absurd same.stage noSubquery
    | tooDeep _ _ _ same => exact absurd same.stage noSubquery
    | noNumber other _ _ _ same rejected =>
      obtain rfl := Relation.stage_injective (same.stage.symm.trans spelled.stage)
      rw [same.clause_eq ends read, rejected, Option.map_none]

/-- Other stages and the later passes of order relations drop nothing. -/
theorem not_drops {compiler : Compiler} {depth : Nat} (other : claim.stage ≠ "qref")
    (later : ∀ relation : Relation, claim.stage = relation.stage → claim.place = 1) :
    ¬compiler.Drops depth claim := by
  intro drops
  cases drops with
  | unknownClass _ _ _ spelled => exact other spelled.stage
  | tooDeep _ _ _ spelled => exact other spelled.stage
  | noNumber relation _ _ _ spelled =>
    have second := later relation spelled.stage
    rw [spelled.place] at second
    cases second

theorem filter_belongs {claims : List Claim} {family : Family}
    (others : ∀ claim ∈ claims, ∀ clause, claim.clause = some clause →
      clause.condition.family.stage ≠ family.stage) (negated : Bool) :
    (claims.filterMap Claim.clause).filter (·.belongs family negated) = [] := by
  rw [List.filter_eq_nil_iff]
  intro clause member belongs
  obtain ⟨claim, found, said⟩ := List.mem_filterMap.mp member
  simp only [Clause.belongs, decide_eq_true_eq] at belongs
  exact others claim found clause said (congrArg Family.stage belongs.1)

end Claim

section

variable {compiler : Compiler} {depth : Nat} {inner : Compiler.Inner} {pass : Pass} {claim : Claim}
  {source : List Char}

/-- What a pass of a stage says is of the stage's kinds. -/
theorem Stage.Reads.own (reads : Reads (compiler.embed inner) pass)
    (stage : claim.stage = pass.stage)
    (token : (claim.lexeme, claim.clause) ∈ Piece.tokens (Token.scan pass.reader source)) :
    ∀ clause, claim.clause = some clause → clause.condition.family.stage = claim.stage := by
  intro clause said
  rw [stage]
  cases reads with
  | subquery =>
    obtain ⟨⟨field, negated, body, _, _, _, _, answer⟩, _⟩ :=
      Token.token_scan (Clause.takes_subquery _) token
    rw [said, eq_comm, Option.map_eq_some_iff] at answer
    obtain ⟨query, _, rfl⟩ := answer
    rfl
  | number relation =>
    obtain ⟨⟨field, negated, numeral, _, _, answer⟩, _⟩ :=
      Token.token_scan (Clause.takes_absolute relation) token
    rw [said, eq_comm, Option.map_eq_some_iff] at answer
    obtain ⟨number, _, rfl⟩ := answer
    rfl
  | clause _ _ spoken =>
    obtain ⟨⟨same, answer, kept⟩, _⟩ := Token.token_scan spoken token
    rw [said, Option.some.injEq] at answer
    rw [answer, kept]

/-- A pass drops the claims that say nothing, and no other. -/
theorem Stage.Reads.drops_iff (reads : Reads (compiler.embed inner) pass)
    (missing : ∀ className text, compiler.embed inner className text = none ↔
      compiler.class? (String.ofList className) = none ∨ compiler.maxDepth ≤ depth)
    (stage : claim.stage = pass.stage) (place : claim.place = pass.place)
    (token : (claim.lexeme, claim.clause) ∈ Piece.tokens (Token.scan pass.reader source)) :
    claim.clause = none ↔ compiler.Drops depth claim := by
  cases reads with
  | subquery =>
    obtain ⟨⟨field, negated, body, lexeme, nonempty, units, _⟩, after, _, read⟩ :=
      Token.token_scan (Clause.takes_subquery _) token
    have spelled : claim.IsSubquery field negated body := ⟨stage, lexeme, nonempty, units⟩
    exact spelled.drops_iff missing read
  | number relation =>
    obtain ⟨⟨field, negated, numeral, lexeme, plain, _⟩, after, ends, read⟩ :=
      Token.token_scan (Clause.takes_absolute relation) token
    have spelled : claim.IsComparison relation field negated numeral :=
      ⟨stage, place, lexeme, plain⟩
    exact spelled.drops_iff ends read
  | clause _ _ spoken other later =>
    obtain ⟨⟨said, answer, _⟩, _⟩ := Token.token_scan spoken token
    rw [← stage] at other later
    rw [← place] at later
    have speaks : claim.clause ≠ none := Option.ne_none_iff_exists'.mpr ⟨said, answer⟩
    exact iff_of_false speaks (Claim.not_drops other later)

/-- No pass takes an identifier for a subquery. -/
theorem Stage.Reads.isIdentifier_eq_false (reads : Reads (compiler.embed inner) pass)
    (stage : claim.stage = pass.stage)
    (token : (claim.lexeme, claim.clause) ∈ Piece.tokens (Token.scan pass.reader source))
    {field : FieldName} {negated : Bool} {body : List Char}
    (spelled : claim.IsSubquery field negated body) : Clause.isIdentifier body = false := by
  cases reads with
  | subquery =>
    obtain ⟨_, after, _, read⟩ := Token.token_scan (Clause.takes_subquery _) token
    exact (spelled.clause_eq read).1
  | number relation => exact absurd (stage.symm.trans spelled.stage) relation.stage_ne_subquery
  | clause _ _ _ other => exact absurd (stage.symm.trans spelled.stage) other

end

namespace Compiler

/-- Running any of the stages conserves the text: of the whole pipeline, a part of it or a single
stage. -/
theorem stages_conserve (compiler : Compiler) (depth : Nat) (cls : EntityClass)
    (stages : List Stage) (members : ∀ stage ∈ stages, stage ∈ compiler.stagesAt depth cls)
    (text : List Char) (selector : Selector) :
    Conserves compiler depth stages text selector (Pass.claimsAll (Stage.placed stages) text)
      (Stage.runAll stages text selector).1 (Stage.runAll stages text selector).2 := by
  have reads : ∀ pass ∈ Stage.placed stages, Stage.Reads (compiler.embed
      (compiler.innerAt Selector.simplify (compiler.maxDepth - depth) cls)) pass :=
    fun _ => Stage.reads_of_placed members
  have cuts := Pass.cuts (Stage.placed stages) text (fun pass member => (reads pass member).dark)
  have own : ∀ claim ∈ Pass.claimsAll (Stage.placed stages) text,
      (∃ stage ∈ stages, claim.stage = stage.name) ∧
        ∀ clause, claim.clause = some clause → clause.condition.family.stage = claim.stage := by
    intro claim member
    obtain ⟨pass, found, stage, _, source, token⟩ := Pass.mem_claimsAll member
    rw [stage]
    exact ⟨Stage.stage_of_placed found, stage ▸ (reads pass found).own stage token⟩
  have lists : ∀ family negated,
      (Stage.runAll stages text selector).2.listed family negated =
        selector.listed family negated ++
          (((Pass.claimsAll (Stage.placed stages) text).filterMap Claim.clause).filter
            (·.belongs family negated)).map Clause.condition := by
    intro family negated
    rw [Stage.runAll_eq, Selector.listed_addAll]
  refine { cuts := ?_, words := ?_, lists := lists, own := own, unchanged := ?_, frame := ?_,
           count := ?_, dropped := ?_, references := ?_ }
  · rw [Stage.runAll_eq]
    exact cuts
  · rw [Stage.runAll_eq]
    exact cuts.words
  · intro family negated others
    have foreign : ∀ claim ∈ Pass.claimsAll (Stage.placed stages) text, ∀ clause,
        claim.clause = some clause → clause.condition.family.stage ≠ family.stage := by
      intro claim member clause said same
      obtain ⟨⟨stage, listed, named⟩, kept⟩ := own claim member
      rw [kept clause said, named] at same
      exact others stage listed same
    rw [lists, Claim.filter_belongs foreign, List.map_nil, List.append_nil]
  · rw [Stage.runAll_eq, Selector.kind_addAll, Selector.nested_addAll, Selector.defined_addAll]
    exact ⟨rfl, rfl, rfl⟩
  · rw [Stage.runAll_eq, Selector.clauseCount_addAll, List.length_filterMap_eq_countP]
  · intro claim member
    obtain ⟨pass, found, stage, place, source, token⟩ := Pass.mem_claimsAll member
    exact (reads pass found).drops_iff (compiler.embed_eq_none_iff depth cls) stage place token
  · intro claim member field negated body spelled
    obtain ⟨pass, found, stage, _, source, token⟩ := Pass.mem_claimsAll member
    exact (reads pass found).isIdentifier_eq_false stage token spelled

/-- The whole pipeline on a text with a token and a word that stays. -/
theorem stages_conserve_pipeline :
    (∀ stage ∈ ({} : Compiler).stagesAt 0 ⟨"User", []⟩,
      stage ∈ ({} : Compiler).stagesAt 0 ⟨"User", []⟩) ∧
    Conserves {} 0 (({} : Compiler).stagesAt 0 ⟨"User", []⟩) ['<', 't', '>', ' ', 'x']
      { kind := .allOf }
      (Pass.claimsAll (Stage.placed (({} : Compiler).stagesAt 0 ⟨"User", []⟩))
        ['<', 't', '>', ' ', 'x'])
      [' ', ' ', 'x'] { kind := .allOf, clauses := { tag := ⟨["t"], []⟩ } } := by
  have members : ∀ stage ∈ ({} : Compiler).stagesAt 0 ⟨"User", []⟩,
      stage ∈ ({} : Compiler).stagesAt 0 ⟨"User", []⟩ := fun _ member => member
  have run : Stage.runAll (({} : Compiler).stagesAt 0 ⟨"User", []⟩) ['<', 't', '>', ' ', 'x']
      { kind := .allOf } =
        ([' ', ' ', 'x'], { kind := .allOf, clauses := { tag := ⟨["t"], []⟩ } }) := rfl
  have conserved := stages_conserve {} 0 ⟨"User", []⟩ _ members ['<', 't', '>', ' ', 'x']
    { kind := .allOf }
  rw [run] at conserved
  exact ⟨members, conserved⟩

end Compiler

end SelectorLang
