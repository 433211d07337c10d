import SelectorLang.Proofs.LeadingBlanks
import SelectorLang.Proofs.Nesting
import SelectorLang.Proofs.NormalForm
import SelectorLang.Proofs.Remainders
import SelectorLang.Selector.Equality

set_option autoImplicit false

namespace SelectorLang

namespace Paren

/-- A look at the body ends where a parenthesis would be structural, and every structural
parenthesis in it has a partner. -/
structure SelfContained (body : List Char) : Prop where
  exposed : (({} : Scanner).after body).exposes = true
  balanced : Balanced body

/-- A text that closes what is on a stack and all that it opens is enclosed by it. -/
theorem enclosed_of_matchFrom {scanner : Scanner} {text : List Char}
    (exposed : (scanner.after text).exposes = true) (stack : List Nat) (offset : Nat)
    (closed : (matchFrom stack (scanFrom scanner offset text)).unclosed = [])
    (own : (matchFrom stack (scanFrom scanner offset text)).orphans = []) :
    Enclosed scanner stack.length text := by
  induction text generalizing scanner stack offset with
  | nil =>
    obtain rfl : stack = [] := closed
    exact .done exposed
  | cons c rest ih =>
    rw [Scanner.after_cons] at exposed
    rcases structural_cases scanner c with hidden | ⟨structural, rfl⟩ | ⟨structural, rfl⟩
    · rw [scanFrom_hidden hidden] at closed own
      exact .other hidden (ih exposed stack (offset + 1) closed own)
    · rw [Scanner.step_exposed structural (Or.inl rfl)] at exposed
      rw [scanFrom_opening structural] at closed own
      exact .opening structural (ih exposed (offset :: stack) (offset + 1) closed own)
    · rw [Scanner.step_exposed structural (Or.inr rfl)] at exposed
      rw [scanFrom_closing structural] at closed own
      cases stack with
      | nil => cases own
      | cons start stack => exact .closing structural (ih exposed stack (offset + 1) closed own)

theorem Enclosed.exposes {scanner : Scanner} {depth : Nat} {text : List Char}
    (inside : Enclosed scanner depth text) : (scanner.after text).exposes = true := by
  induction inside with
  | done exposed => exact exposed
  | other _ _ ih => exact ih
  | opening exposed _ ih => rwa [Scanner.after_cons, Scanner.step_exposed exposed (Or.inl rfl)]
  | closing exposed _ ih => rwa [Scanner.after_cons, Scanner.step_exposed exposed (Or.inr rfl)]

/-- The self-contained bodies are those that can stand in a group. -/
theorem selfContained_iff (body : List Char) : SelfContained body ↔ Enclosed {} 0 body := by
  constructor
  · rintro ⟨exposed, closed, own⟩
    exact enclosed_of_matchFrom exposed [] 0 closed own
  · intro inside
    exact ⟨inside.exposes, inside.balanced rfl 0⟩

theorem Enclosed.ordinary_append {lead content : List Char} {depth : Nat}
    (ordinary : ∀ c ∈ lead, Scanner.isOrdinary c = true) (inside : Enclosed {} depth content) :
    Enclosed {} depth (lead ++ content) := by
  induction lead with
  | nil => exact inside
  | cons c rest ih =>
    obtain ⟨first, others⟩ := List.forall_mem_cons.mp ordinary
    refine .other (Or.inr (Scanner.ne_paren_of_isOrdinary first)) ?_
    rw [Scanner.step_ordinary first false]
    exact ih others

end Paren

namespace Combinator

theorem marker_of_ofMarker? {marker : String} {kind : Combinator}
    (marks : ofMarker? marker = some kind) : marker = kind.marker := by
  grind [ofMarker?, marker]

/-- A group marker in front of a body is taken whole; the negation alone would take an ampersand or
a bar with it. -/
theorem takeMarker_groupMarker {marker : String} {kind : Combinator}
    (marks : ofGroupMarker? marker = some kind) {body : List Char}
    (apart : marker = "!" → body.head? ≠ some '&' ∧ body.head? ≠ some '|') :
    takeMarker (Text.trimStart (marker.toList ++ body)) = (kind, body) := by
  rw [ofGroupMarker?] at marks
  split at marks
  · rename_i negation
    obtain ⟨ampersand, bar⟩ := apart negation
    subst negation
    cases marks
    have start : Text.trimStart ("!".toList ++ body) = '!' :: body := rfl
    rw [start, takeMarker]
    · rintro rest rfl
      exact ampersand rfl
    · rintro rest rfl
      exact bar rfl
  · rw [marker_of_ofMarker? marks, trimStart_marker, takeMarker_append]

theorem isOrdinary_of_groupMarker {marker : String} {kind : Combinator}
    (marks : ofGroupMarker? marker = some kind) :
    ∀ c ∈ marker.toList, Scanner.isOrdinary c = true := by
  rw [ofGroupMarker?] at marks
  split at marks
  · rename_i negation
    rw [negation]
    exact List.all_eq_true.mp rfl
  · rw [marker_of_ofMarker? marks]
    cases kind <;> exact List.all_eq_true.mp rfl

end Combinator

namespace Compiler

variable (compiler : Compiler)

/-- The selector for a body that stands in a group of a kind at a depth. A group below the last
level and a group with nothing in it are left out. -/
def groupAt (depth : Nat) (cls : EntityClass) (kind : Combinator) (body : List Char) :
    Option Selector :=
  if compiler.maxDepth < depth then none
  else compiler.groupWith Selector.simplify
    (compiler.innerAt Selector.simplify (compiler.maxDepth - depth) cls) cls
    ⟨⟨0, body.length⟩, kind, body⟩

/-- The groups in what stands at a depth are compiled one level deeper. -/
theorem innerAt_group {depth : Nat} (within : depth ≤ compiler.maxDepth) (cls : EntityClass)
    (group : Group) :
    (compiler.innerAt Selector.simplify (compiler.maxDepth - depth) cls).group group =
      compiler.groupAt (depth + 1) cls group.kind group.body := by
  rw [groupAt]
  split
  · have last : compiler.maxDepth - depth = 0 := by omega
    rw [last]
    rfl
  · have deeper : compiler.maxDepth - depth = compiler.maxDepth - (depth + 1) + 1 := by omega
    rw [deeper]
    simp only [innerAt, groupWith]

theorem fill_blank (inner : Inner) (kind : Combinator) (groups : List Group) {text : List Char}
    (blank : text.all isBlank = true) :
    compiler.fill inner kind groups text =
      (text, ({ kind := kind } : Selector).nest (groups.filterMap inner.group)) := by
  have dark : ∀ pass ∈ Stage.placed (Stage.all (compiler.embed inner)), pass.reader.Dark :=
    fun pass placed => Stage.dark_of_mem placed
  obtain ⟨rest, claims⟩ := Pass.all_blank dark blank
  rw [fill, Stage.runAll_eq, rest, claims]
  rfl

/-- A text that is one group gives no options and one selector, that of the group, or the empty one
where the group is left out. -/
theorem queryAt_of_split {text : List Char} {group : Group} (parts : split text = ⟨[group], [' ']⟩)
    (depth : Nat) (cls : EntityClass) :
    compiler.queryAt Selector.simplify depth cls text =
      ⟨{ className := cls.name },
        [((compiler.innerAt Selector.simplify depth cls).group group).getD
          { kind := .allOf }]⟩ := by
  have directives : Directive.extract [' '] { className := cls.name } =
      ([' '], { className := cls.name }) := rfl
  have filled := compiler.fill_blank (compiler.innerAt Selector.simplify depth cls) .allOf [group]
    (Eq.refl (List.all [' '] isBlank))
  have silent : compiler.bareSelector cls [' '] = none := bareSelector_of_words compiler cls rfl
  have collapsed : (({ kind := .allOf } : Selector).nest
      ([group].filterMap (compiler.innerAt Selector.simplify depth cls).group)).simplify =
        ((compiler.innerAt Selector.simplify depth cls).group group).getD { kind := .allOf } := by
    rw [List.filterMap_cons]
    cases (compiler.innerAt Selector.simplify depth cls).group group with
    | none => rfl
    | some child => exact Selector.simplify_of_wraps ⟨rfl, rfl, rfl⟩
  simp only [queryAt, queryWith, parts, directives, filled, silent, collapsed, Option.isSome_none,
    Bool.and_false, Bool.false_eq_true, ↓reduceIte, Option.toList_none, List.append_nil]

/-- Between parentheses and behind a marker a self-contained body compiles to what it compiles to as
a group at the first level, and to the empty selector where that group is left out. Its directives
stay words of the group: the options are those of a query without directives. -/
theorem compile_wrapped (cls : EntityClass) {marker : String} {kind : Combinator}
    (marks : Combinator.ofGroupMarker? marker = some kind) {body : List Char}
    (contained : Paren.SelfContained body)
    (apart : marker = "!" → body.head? ≠ some '&' ∧ body.head? ≠ some '|') :
    compiler.compile (String.ofList ('(' :: (marker.toList ++ body ++ [')']))) cls =
      ⟨{ className := cls.name },
        [(compiler.groupAt 1 cls kind body).getD { kind := .allOf }]⟩ := by
  have inside := ((Paren.selfContained_iff body).mp contained).ordinary_append
    (Combinator.isOrdinary_of_groupMarker marks)
  have parts := split_enclosed inside
  rw [Combinator.takeMarker_groupMarker marks apart] at parts
  rw [compile, String.toList_ofList, queryAt_of_split compiler parts]
  have first := compiler.innerAt_group (Nat.zero_le _) cls
    ⟨⟨0, (marker.toList ++ body).length + 2⟩, kind, body⟩
  rw [Nat.sub_zero] at first
  rw [first]

/-- The selector of `!(b=1) limit:3` in parentheses, whose limit is a word of the group. -/
def negationSample : Selector where
  kind := .noneOf
  nested :=
    ⟨[{ kind := .allOf, clauses := { equal := ⟨[("b", .number (.whole 1 (by decide)))], []⟩ } },
      { kind := .anyOf, clauses := { likeFold := ⟨[("name", "%limit:3%")], []⟩ } }], []⟩

theorem compile_wrapped_negation :
    Combinator.ofGroupMarker? "!" = some .noneOf ∧ Paren.SelfContained "(b=1) limit:3".toList ∧
      ("(b=1) limit:3".toList.head? ≠ some '&' ∧ "(b=1) limit:3".toList.head? ≠ some '|') ∧
      ({} : Compiler).groupAt 1 ⟨"User", []⟩ .noneOf "(b=1) limit:3".toList =
        some negationSample ∧
      ({} : Compiler).compile "(!(b=1) limit:3)" ⟨"User", []⟩ =
        ⟨{ className := "User" }, [negationSample]⟩ := by
  have contained : Paren.SelfContained "(b=1) limit:3".toList := ⟨by decide, by decide, by decide⟩
  have apart : "(b=1) limit:3".toList.head? ≠ some '&' ∧
      "(b=1) limit:3".toList.head? ≠ some '|' := by decide
  have text : String.ofList ('(' :: ("!".toList ++ "(b=1) limit:3".toList ++ [')'])) =
      "(!(b=1) limit:3)" := by decide
  have group : ({} : Compiler).groupAt 1 ⟨"User", []⟩ .noneOf "(b=1) limit:3".toList =
      some negationSample := by decide +kernel
  have compiled := compile_wrapped {} ⟨"User", []⟩ (Eq.refl (Combinator.ofGroupMarker? "!"))
    contained (fun _ => apart)
  rw [text, group] at compiled
  exact ⟨rfl, contained, apart, group, compiled⟩

end Compiler

end SelectorLang
