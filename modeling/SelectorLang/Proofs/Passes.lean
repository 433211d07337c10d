import SelectorLang.Proofs.ClauseTokens

set_option autoImplicit false

namespace SelectorLang

/-- A token that a pass takes out of its text. -/
structure Claim where
  stage : String
  place : Nat
  lexeme : List Char
  clause : Option Clause

structure Pass where
  stage : String
  place : Nat
  reader : Reader (Option Clause)

namespace Pass

def pieces (pass : Pass) (text : List Char) : List (Piece (Option Clause)) :=
  Token.scan pass.reader text

def rest (pass : Pass) (text : List Char) : List Char := Piece.rest (pass.pieces text)

def claims (pass : Pass) (text : List Char) : List Claim :=
  (Piece.tokens (pass.pieces text)).map
    (fun token => ⟨pass.stage, pass.place, token.1, token.2⟩)

/-- The text that passes one after the other leave. -/
def restAll (passes : List Pass) (text : List Char) : List Char :=
  passes.foldl (fun left pass => pass.rest left) text

/-- The claims of passes, each on the text that those before it leave. -/
def claimsAll : List Pass → List Char → List Claim
  | [], _ => []
  | pass :: others, text => pass.claims text ++ claimsAll others (pass.rest text)

@[simp] theorem restAll_cons (pass : Pass) (others : List Pass) (text : List Char) :
    restAll (pass :: others) text = restAll others (pass.rest text) := rfl

theorem restAll_append (first second : List Pass) (text : List Char) :
    restAll (first ++ second) text = restAll second (restAll first text) :=
  List.foldl_append

theorem claimsAll_append (first second : List Pass) (text : List Char) :
    claimsAll (first ++ second) text =
      claimsAll first text ++ claimsAll second (restAll first text) := by
  induction first generalizing text with
  | nil => rfl
  | cons pass others ih =>
    rw [List.cons_append, claimsAll, claimsAll, ih, List.append_assoc, restAll_cons]

theorem mem_claimsAll {passes : List Pass} {text : List Char} {claim : Claim}
    (member : claim ∈ claimsAll passes text) :
    ∃ pass ∈ passes, claim.stage = pass.stage ∧ claim.place = pass.place ∧
      ∃ source, (claim.lexeme, claim.clause) ∈ Piece.tokens (Token.scan pass.reader source) := by
  induction passes generalizing text with
  | nil => cases member
  | cons pass others ih =>
    rw [claimsAll, List.mem_append] at member
    rcases member with own | later
    · obtain ⟨token, found, rfl⟩ := List.mem_map.mp own
      exact ⟨pass, List.mem_cons_self, rfl, rfl, text, found⟩
    · obtain ⟨other, found, facts⟩ := ih later
      exact ⟨other, List.mem_cons_of_mem _ found, facts⟩

theorem runPass_eq (pass : Pass) (text : List Char) :
    Stage.runPass pass.reader text =
      (pass.rest text, (pass.claims text).filterMap Claim.clause) := by
  rw [Stage.runPass, Piece.values_eq_map_tokens, claims, List.filterMap_map, List.filterMap_map]
  rfl

end Pass

namespace Stage

/-- The passes of a stage, with their places from one on. -/
def placedFrom (name : String) : Nat → List (Reader (Option Clause)) → List Pass
  | _, [] => []
  | place, reader :: others => ⟨name, place, reader⟩ :: placedFrom name (place + 1) others

def placed (stages : List Stage) : List Pass :=
  stages.flatMap (fun stage => placedFrom stage.name 0 stage.passes)

theorem stage_of_mem {name : String} {place : Nat} {readers : List (Reader (Option Clause))}
    {pass : Pass} (member : pass ∈ placedFrom name place readers) : pass.stage = name := by
  induction readers generalizing place with
  | nil => cases member
  | cons reader others ih =>
    rcases List.mem_cons.mp member with rfl | later
    · rfl
    · exact ih later

theorem runPasses_eq (name : String) (place : Nat) (readers : List (Reader (Option Clause)))
    (text : List Char) (selector : Selector) :
    runPasses readers text selector =
      (Pass.restAll (placedFrom name place readers) text,
        selector.addAll ((Pass.claimsAll (placedFrom name place readers) text).filterMap
          Claim.clause)) := by
  induction readers generalizing place text selector with
  | nil => rfl
  | cons reader others ih =>
    have found := Pass.runPass_eq ⟨name, place, reader⟩ text
    simp only at found
    simp only [runPasses, found, ih (place + 1), placedFrom, Pass.restAll_cons, Pass.claimsAll,
      List.filterMap_append, Selector.addAll_append]

/-- Running stages is making their passes and adding what their claims say. -/
theorem runAll_eq (stages : List Stage) (text : List Char) (selector : Selector) :
    runAll stages text selector =
      (Pass.restAll (placed stages) text,
        selector.addAll ((Pass.claimsAll (placed stages) text).filterMap Claim.clause)) := by
  induction stages generalizing text selector with
  | nil => rfl
  | cons stage others ih =>
    have own : placed (stage :: others) = placedFrom stage.name 0 stage.passes ++ placed others :=
      List.flatMap_cons
    simp only [runAll, run, runPasses_eq stage.name 0, ih, own, Pass.restAll_append,
      Pass.claimsAll_append, List.filterMap_append, Selector.addAll_append]

/-- What holds of the pass of every clause kind holds of all passes over a text. -/
theorem forall_placed {embed : List Char → List Char → Option Query} {holds : Pass → Prop}
    (subquery : holds ⟨"qref", 0, Clause.subquery embed⟩)
    (equal : holds ⟨"equal", 0, Clause.equal⟩) (reference : holds ⟨"ref", 0, Clause.reference⟩)
    (contain : holds ⟨"contain", 0, Clause.contain⟩) (regex : holds ⟨"match", 0, Clause.regex⟩)
    (like : holds ⟨"like", 0, Clause.like⟩) (guid : holds ⟨"guid", 0, Clause.guid⟩)
    (truthy : holds ⟨"truthy", 0, Clause.truthy⟩) (tag : holds ⟨"tag", 0, Clause.tag⟩)
    (absolute : ∀ relation : Relation, holds ⟨relation.stage, 0, Clause.absolute relation⟩)
    (relative : ∀ relation : Relation, holds ⟨relation.stage, 1, Clause.relative relation⟩) :
    ∀ pass ∈ placed (all embed), holds pass := by
  intro pass member
  simp only [placed, all, placedFrom, ordering, List.flatMap_cons, List.flatMap_nil,
    List.append_nil, List.cons_append, List.nil_append, List.mem_cons, List.not_mem_nil, or_false]
    at member
  rcases member with rfl | rfl | rfl | rfl | rfl | rfl | rfl | rfl | rfl | rfl | rfl | rfl | rfl |
    rfl | rfl | rfl | rfl
  · exact subquery
  · exact equal
  · exact reference
  · exact contain
  · exact regex
  · exact like
  · exact guid
  · exact truthy
  · exact tag
  · exact absolute .greater
  · exact relative .greater
  · exact absolute .greaterEq
  · exact relative .greaterEq
  · exact absolute .less
  · exact relative .less
  · exact absolute .lessEq
  · exact relative .lessEq

/-- What a pass of a stage reads: a subquery, a number, or a token that always says a clause. -/
inductive Reads (embed : List Char → List Char → Option Query) : Pass → Prop
  | subquery : Reads embed ⟨"qref", 0, Clause.subquery embed⟩
  | number (relation : Relation) : Reads embed ⟨relation.stage, 0, Clause.absolute relation⟩
  | clause (pass : Pass) (dark : pass.reader.Dark)
      (spoken : pass.reader.Takes (fun _ => Clause.Says pass.stage)) (other : pass.stage ≠ "qref")
      (later : ∀ relation : Relation, pass.stage = relation.stage → pass.place = 1) :
      Reads embed pass

section

variable {embed : List Char → List Char → Option Query} {pass : Pass}

theorem reads_single {name : String} {reader : Reader (Option Clause)} (dark : reader.Dark)
    (spoken : reader.Takes (fun _ => Clause.Says name))
    (other : name ∉ ["qref", "gt", "gte", "lt", "lte"])
    (single : pass ∈ placed [⟨name, [reader]⟩]) : Reads embed pass := by
  simp only [placed, placedFrom, List.flatMap_cons, List.flatMap_nil, List.append_nil,
    List.mem_singleton] at single
  rw [single]
  simp only [List.mem_cons, List.not_mem_nil, or_false, not_or] at other
  obtain ⟨noSubquery, noGreater, noGreaterEq, noLess, noLessEq⟩ := other
  apply Reads.clause _ dark spoken noSubquery
  intro relation same
  cases relation with
  | greater => exact absurd same noGreater
  | greaterEq => exact absurd same noGreaterEq
  | less => exact absurd same noLess
  | lessEq => exact absurd same noLessEq

theorem reads_ordering (relation : Relation)
    (double : pass ∈ placed [ordering relation.stage relation]) : Reads embed pass := by
  simp only [placed, placedFrom, ordering, List.flatMap_cons, List.flatMap_nil, List.append_nil,
    List.mem_cons, List.not_mem_nil, or_false] at double
  rcases double with rfl | rfl
  · exact .number relation
  · have other : relation.stage ≠ "qref" := by
      cases relation <;> decide
    apply Reads.clause _ (Clause.dark_relative relation) (Clause.takes_relative relation) other
    intro _ _
    rfl

theorem reads_of_mem {stage : Stage} (member : stage ∈ all embed) (own : pass ∈ placed [stage]) :
    Reads embed pass := by
  simp only [all, List.mem_cons, List.not_mem_nil, or_false] at member
  rcases member with rfl | rfl | rfl | rfl | rfl | rfl | rfl | rfl | rfl | rfl | rfl | rfl | rfl
  · simp only [placed, placedFrom, List.flatMap_cons, List.flatMap_nil, List.append_nil,
      List.mem_singleton] at own
    rw [own]
    exact .subquery
  · exact reads_single Clause.dark_equal Clause.takes_equal (by decide) own
  · exact reads_single Clause.dark_reference Clause.takes_reference (by decide) own
  · exact reads_single Clause.dark_contain Clause.takes_contain (by decide) own
  · exact reads_single Clause.dark_regex Clause.takes_regex (by decide) own
  · exact reads_single Clause.dark_like Clause.takes_like (by decide) own
  · exact reads_single Clause.dark_guid Clause.takes_guid (by decide) own
  · exact reads_single Clause.dark_truthy Clause.takes_truthy (by decide) own
  · exact reads_single Clause.dark_tag Clause.takes_tag (by decide) own
  · exact reads_ordering .greater own
  · exact reads_ordering .greaterEq own
  · exact reads_ordering .less own
  · exact reads_ordering .lessEq own

theorem Reads.dark (reads : Reads embed pass) : pass.reader.Dark := by
  cases reads with
  | subquery => exact Clause.dark_subquery embed
  | number relation => exact Clause.dark_absolute relation
  | clause _ dark => exact dark

theorem reads_of_placed {stages : List Stage} (members : ∀ stage ∈ stages, stage ∈ all embed)
    (member : pass ∈ placed stages) : Reads embed pass := by
  obtain ⟨stage, listed, own⟩ := List.mem_flatMap.mp member
  apply reads_of_mem (members stage listed)
  rwa [placed, List.flatMap_cons, List.flatMap_nil, List.append_nil]

theorem stage_of_placed {stages : List Stage} (member : pass ∈ placed stages) :
    ∃ stage ∈ stages, pass.stage = stage.name := by
  obtain ⟨stage, listed, own⟩ := List.mem_flatMap.mp member
  exact ⟨stage, listed, stage_of_mem own⟩

theorem dark_of_mem (member : pass ∈ placed (all embed)) : pass.reader.Dark :=
  (reads_of_placed (fun _ listed => listed) member).dark

end

end Stage

end SelectorLang
