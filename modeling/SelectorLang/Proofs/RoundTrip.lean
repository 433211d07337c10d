import SelectorLang.Proofs.NormalForm
import SelectorLang.Proofs.Printing

set_option autoImplicit false

namespace SelectorLang

mutual

/-- The selector as it is filled by compiling a print of it, before it is simplified itself. -/
def Selector.pruned : Selector → Selector
  | ⟨kind, clauses, subqueries, ⟨positive, negative⟩⟩ =>
    ⟨kind, clauses, subqueries, ⟨Selector.prunedAll positive, negative⟩⟩
termination_by structural selector => selector

def Selector.prunedAll : List Selector → List Selector
  | [] => []
  | child :: others =>
    if child.pruned.isEmpty then Selector.prunedAll others
    else child.pruned.simplify :: Selector.prunedAll others
termination_by structural children => children

end

namespace Selector

def inGroup (selector : Selector) : Option Selector :=
  if selector.pruned.isEmpty then none else some selector.pruned.simplify

/-- The node of a query text that prints the selector: only a selector that asks for all of its
clauses is printed without parentheses. -/
def outermost (selector : Selector) : Selector :=
  if selector.kind = .allOf then selector else ({ kind := .allOf } : Selector).nest [selector]

theorem pruned_eq (selector : Selector) :
    selector.pruned =
      { selector with
        nested := { selector.nested with positive := prunedAll selector.nested.positive } } := by
  obtain ⟨kind, clauses, subqueries, ⟨positive, negative⟩⟩ := selector
  rw [pruned]

theorem prunedAll_eq (children : List Selector) :
    prunedAll children = (children.map inGroup).filterMap id := by
  induction children with
  | nil => rw [prunedAll]; rfl
  | cons child others ih =>
    rw [prunedAll, List.map_cons, inGroup, ih]
    split
    · rfl
    · rfl

theorem listed_pruned (selector : Selector) (family : Family) (negated : Bool) :
    selector.pruned.listed family negated = selector.listed family negated := by
  rw [pruned_eq]
  cases family <;> rfl

theorem simplify_of_normal {selector : Selector} (normal : selector.Normal) :
    selector.simplify = selector := by
  cases normal with
  | mk _ _ simplified => exact simplified

mutual

/-- Nothing is pruned in a selector in normal form. -/
theorem pruned_of_normal (selector : Selector) (normal : selector.Normal) :
    selector.pruned = selector := by
  obtain ⟨kind, clauses, subqueries, ⟨positive, negative⟩⟩ := selector
  cases normal with
  | mk _ _ _ nonempty nested =>
    have children := prunedAll_of_normal positive (fun child member =>
      ⟨nested false child member, nonempty false child member⟩)
    rw [pruned, children]
termination_by structural selector

theorem prunedAll_of_normal (children : List Selector)
    (normal : ∀ child ∈ children, child.Normal ∧ child.isEmpty = false) :
    prunedAll children = children := by
  cases children with
  | nil => rw [prunedAll]
  | cons child others =>
    obtain ⟨own, full⟩ := normal child List.mem_cons_self
    have first := pruned_of_normal child own
    have later := prunedAll_of_normal others (fun other member =>
      normal other (List.mem_cons_of_mem child member))
    rw [prunedAll, first, full, if_neg Bool.false_ne_true, simplify_of_normal own, later]
termination_by structural children

end

theorem simplify_nest (selector : Selector) :
    (({ kind := .allOf } : Selector).nest [selector]).simplify = selector := rfl

/-- A selector in normal form is what its print is read as. -/
theorem outermost_of_normal {selector : Selector} (normal : selector.Normal)
    (sole : selector.isEmpty = true → selector.kind = .allOf) :
    selector.outermost.pruned.simplify = selector := by
  have same := pruned_of_normal selector normal
  have simplified := simplify_of_normal normal
  by_cases bare : selector.kind = .allOf
  · rw [outermost, if_pos bare, same, simplified]
  · have full : selector.isEmpty = false := by
      cases empty : selector.isEmpty with
      | false => rfl
      | true => exact absurd (sole empty) bare
    have inside : prunedAll [selector] = [selector] := by
      rw [prunedAll, same, full, if_neg Bool.false_ne_true, simplified, prunedAll]
    rw [outermost, if_neg bare, pruned_eq]
    show ({ kind := .allOf, nested := ⟨prunedAll [selector], []⟩ } : Selector).simplify = selector
    rw [inside]
    exact simplify_nest selector

end Selector

/-- The query text for a layout of a selector: a group, unless all of its clauses are asked for. -/
def Layout.outermost (kind : Combinator) (layout : Layout) : Layout :=
  if kind = .allOf then layout else .group [] rfl kind layout .done

namespace Compiler

variable {layout : Layout} {selector : Selector}

/-- Once the groups are read, the stages fill the node. -/
theorem fill_printed (compiler : Compiler) {inner : Inner} (prints : layout.Prints selector)
    (spaced : layout.Spaced)
    (groups : (split layout.text).groups.filterMap inner.group =
      Selector.prunedAll selector.nested.positive) :
    Text.words (compiler.fill inner selector.kind (split layout.text).groups
        (split layout.text).remainder).1 = [] ∧
      (compiler.fill inner selector.kind (split layout.text).groups
        (split layout.text).remainder).2 = selector.pruned := by
  obtain ⟨remainder, _⟩ := layout.split_text
  have lists := Layout.listed_inPasses prints
  have run := @Stage.runAll_printed (compiler.embed inner) _ (Layout.apart_slots spaced)
    (({ kind := selector.kind } : Selector).nest (Selector.prunedAll selector.nested.positive))
  obtain ⟨blank, filled⟩ := run
  rw [fill, remainder, groups]
  refine ⟨blank, ?_⟩
  rw [filled]
  cases prints with
  | mk _ _ _ _ defined positive =>
    apply Selector.ext_listed
    · rw [Selector.kind_addAll, Selector.pruned_eq]
      rfl
    · rw [Selector.nested_addAll, Selector.pruned_eq]
      simp only [positive, Selector.nest, List.nil_append]
    · rw [Selector.defined_addAll, Selector.pruned_eq]
      exact defined.symm
    · intro family negated
      rw [Selector.listed_addAll, Selector.listed_nest, Selector.listed_pruned,
        ← lists family negated]
      rfl

/-- A group that prints a selector is compiled to it, unless it is empty. -/
theorem groupWith_printed (compiler : Compiler) {inner : Inner} (cls : EntityClass) {group : Group}
    (kind : group.kind = selector.kind) (body : group.body = layout.text)
    (prints : layout.Prints selector) (spaced : layout.Spaced)
    (groups : (split layout.text).groups.filterMap inner.group =
      Selector.prunedAll selector.nested.positive) :
    compiler.groupWith Selector.simplify inner cls group = selector.inGroup := by
  have filled := fill_printed compiler prints spaced groups
  rw [← body, ← kind] at filled
  have bare := bareSelector_of_words compiler cls filled.1
  simp only [groupWith, bare, filled.2, Option.toList_none, Selector.nest_nil]
  rfl

theorem queryWith_printed (compiler : Compiler) {inner : Inner} (cls : EntityClass)
    (kind : selector.kind = .allOf) (prints : layout.Prints selector) (spaced : layout.Spaced)
    (groups : (split layout.text).groups.filterMap inner.group =
      Selector.prunedAll selector.nested.positive) :
    compiler.queryWith Selector.simplify inner cls layout.text =
      ⟨{ className := cls.name }, [selector.pruned.simplify]⟩ := by
  obtain ⟨remainder, _⟩ := layout.split_text
  have filled := fill_printed compiler prints spaced groups
  have directives := Directive.extract_printed (Layout.apart_slots spaced) cls.name
  rw [← remainder] at directives
  rw [kind] at filled
  have bare := bareSelector_of_words compiler cls filled.1
  simp only [queryWith, directives, bare, filled.2, Option.isSome_none, Bool.and_false,
    Bool.false_eq_true, ↓reduceIte, Option.toList_none, List.append_nil]

theorem map_groups {groups : List Group} {entries : List (Combinator × Layout)}
    {children : List Selector} {answer : Group → Option Selector}
    (same : groups.map (fun group => (group.kind, group.body)) =
      entries.map (fun entry => (entry.1, entry.2.text)))
    (kinds : entries.map Prod.fst = children.map Selector.kind)
    (answers : ∀ pair ∈ entries.zip children, ∀ group : Group, group.kind = pair.2.kind →
      group.body = pair.1.2.text → answer group = pair.2.inGroup) :
    groups.map answer = children.map Selector.inGroup := by
  induction children generalizing groups entries with
  | nil =>
    obtain rfl := List.map_eq_nil_iff.mp kinds
    obtain rfl := List.map_eq_nil_iff.mp same
    rfl
  | cons child others ih =>
    obtain ⟨entry, entries, rfl⟩ : ∃ entry rest, entries = entry :: rest :=
      List.exists_cons_of_ne_nil (by rintro rfl; cases kinds)
    obtain ⟨group, groups, rfl⟩ : ∃ group rest, groups = group :: rest :=
      List.exists_cons_of_ne_nil (by rintro rfl; cases same)
    simp only [List.map_cons, List.cons.injEq, Prod.mk.injEq] at same kinds
    have first := answers (entry, child) List.mem_cons_self group
      (same.1.1.trans kinds.1) same.1.2
    have later := ih same.2 kinds.2 (fun pair member =>
      answers pair (List.mem_cons_of_mem _ member))
    rw [List.map_cons, List.map_cons, first, later]

/-- With enough levels left, the groups of a print are compiled to the nodes under the selector. -/
theorem groups_printed (compiler : Compiler) (cls : EntityClass) (depth : Nat)
    (prints : layout.Prints selector) (spaced : layout.Spaced) (within : layout.height ≤ depth) :
    (split layout.text).groups.filterMap
        (compiler.innerAt Selector.simplify depth cls).group =
      Selector.prunedAll selector.nested.positive := by
  induction depth generalizing layout selector with
  | zero =>
    have none : layout.groups = [] := by
      rw [List.eq_nil_iff_forall_not_mem]
      intro entry member
      have lower := Layout.height_lt_of_mem member
      omega
    obtain ⟨_, same⟩ := layout.split_text
    cases prints with
    | mk _ _ _ _ _ _ kinds =>
      rw [none, List.map_nil, eq_comm, List.map_eq_nil_iff] at kinds
      rw [none, List.map_nil, List.map_eq_nil_iff] at same
      rw [kinds, same, Selector.prunedAll]
      rfl
  | succ below ih =>
    obtain ⟨_, same⟩ := layout.split_text
    cases prints with
    | mk _ _ _ _ _ _ kinds children =>
      have answers : ∀ pair ∈ layout.groups.zip selector.nested.positive, ∀ group : Group,
          group.kind = pair.2.kind → group.body = pair.1.2.text →
            (compiler.innerAt Selector.simplify (below + 1) cls).group group = pair.2.inGroup := by
        intro pair member group kind body
        obtain ⟨listed, _⟩ := List.of_mem_zip member
        have apart := Layout.spaced_of_mem spaced listed
        have lower := Layout.height_lt_of_mem listed
        have own := children pair member
        have inside := ih own apart (by omega)
        simp only [innerAt]
        exact groupWith_printed compiler cls kind body own apart inside
      have compiled := map_groups same kinds answers
      rw [Selector.prunedAll_eq, ← compiled, List.filterMap_map]
      rfl

theorem prints_outermost (prints : layout.Prints selector) :
    (layout.outermost selector.kind).Prints selector.outermost := by
  by_cases bare : selector.kind = .allOf
  · rw [Layout.outermost, Selector.outermost, if_pos bare, if_pos bare]
    exact prints
  · rw [Layout.outermost, Selector.outermost, if_neg bare, if_neg bare]
    refine .mk _ _ ?_ ?_ rfl rfl rfl ?_
    · intro family negated
      rw [Selector.listed_nest]
      rfl
    · intro relation negated
      cases relation <;> cases negated <;> exact List.Pairwise.nil
    · intro pair member
      rw [List.mem_singleton.mp member]
      exact prints

theorem spaced_outermost (spaced : layout.Spaced) (kind : Combinator) :
    (layout.outermost kind).Spaced := by
  rw [Layout.outermost]
  split
  · exact spaced
  · exact ⟨spaced, trivial⟩

theorem kind_outermost (selector : Selector) : selector.outermost.kind = .allOf := by
  rw [Selector.outermost]
  split
  · assumption
  · rfl

/-- Compiling any print of a selector gives the selector back, up to empty and needless nodes; a
selector in normal form comes back as it is. -/
theorem compile_printed (compiler : Compiler) (cls : EntityClass) (layout : Layout)
    (selector : Selector) (prints : layout.Prints selector) (spaced : layout.Spaced)
    (within : (layout.outermost selector.kind).height ≤ compiler.maxDepth) :
    compiler.compile (String.ofList (layout.outermost selector.kind).text) cls =
        ⟨{ className := cls.name }, [selector.outermost.pruned.simplify]⟩ ∧
      (selector.Normal → (selector.isEmpty = true → selector.kind = .allOf) →
        compiler.compile (String.ofList (layout.outermost selector.kind).text) cls =
          ⟨{ className := cls.name }, [selector]⟩) := by
  have whole := prints_outermost prints
  have apart := spaced_outermost spaced selector.kind
  have groups := groups_printed compiler cls compiler.maxDepth whole apart within
  have compiled := queryWith_printed compiler cls (kind_outermost selector) whole apart groups
  rw [compile, queryAt, String.toList_ofList, compiled]
  refine ⟨rfl, ?_⟩
  intro normal sole
  rw [Selector.outermost_of_normal normal sole]

end Compiler

/-- Fields `a` and `b` and the tag `c`, as a layout that prints `a="limit:1 (" (!& <!c> [b])`. -/
def Layout.sample : Layout :=
  .phrase ⟨false, .onField ⟨['a'], by decide, by decide⟩ (.equal "limit:1 (".toList)⟩
    (.blank ' ' rfl (.group [] rfl .noneOf
      (.blank ' ' rfl (.phrase ⟨true, .tag ⟨['c'], by decide, by decide⟩⟩
        (.blank ' ' rfl (.phrase ⟨false, .truthy ⟨['b'], by decide, by decide⟩⟩ .done)))) .done))

def Selector.sample : Selector where
  kind := .anyOf
  clauses := { equal := ⟨[("a", .string "limit:1 (")], []⟩ }
  nested := ⟨[{ kind := .noneOf, clauses := { tag := ⟨[], ["c"]⟩, truthy := ⟨["b"], []⟩ } }], []⟩

theorem Layout.prints_sample : Layout.sample.Prints Selector.sample := by
  refine .mk _ _ ?_ ?_ rfl rfl rfl ?_
  · intro family negated
    cases negated <;> cases family with
    | compare relation => cases relation <;> rfl
    | _ => rfl
  · intro relation negated
    cases relation <;> cases negated <;> exact List.Pairwise.nil
  · intro pair member
    obtain rfl := List.mem_singleton.mp member
    refine .mk _ _ ?_ ?_ rfl rfl rfl (fun pair member => nomatch member)
    · intro family negated
      cases negated <;> cases family with
      | compare relation => cases relation <;> rfl
      | _ => rfl
    · intro relation negated
      cases relation <;> cases negated <;> exact List.Pairwise.nil

theorem Selector.sample_normal : Selector.sample.Normal := by
  refine .mk _ (fun _ count => nomatch count) rfl ?_ ?_ ?_
  · intro negated child member
    cases negated with
    | false => rw [List.mem_singleton.mp member]; rfl
    | true => cases member
  · intro negated child member
    cases negated with
    | false => rw [List.mem_singleton.mp member]; exact normal_leaf _ _
    | true => cases member
  · intro negated entry member
    cases negated <;> cases member

/-- A string with what looks like a directive and a parenthesis, under a node that is printed in
parentheses itself. -/
theorem Compiler.compile_printed_sample :
    String.ofList (Layout.sample.outermost .anyOf).text = "(|a=\"limit:1 (\" (!& <!c> [b]))" ∧
      Layout.sample.Prints Selector.sample ∧ Selector.sample.Normal ∧
      ({} : Compiler).compile (String.ofList (Layout.sample.outermost .anyOf).text) ⟨"User", []⟩ =
        ⟨{ className := "User" }, [Selector.sample]⟩ := by
  have spaced : Layout.sample.Spaced := ⟨rfl, ⟨rfl, rfl, trivial⟩, trivial⟩
  have within : (Layout.sample.outermost .anyOf).height ≤ standardDepth := by decide
  have compiled := compile_printed {} ⟨"User", []⟩ Layout.sample Selector.sample
    Layout.prints_sample spaced within
  exact ⟨by decide, Layout.prints_sample, Selector.sample_normal,
    compiled.2 Selector.sample_normal (fun empty => nomatch empty)⟩

end SelectorLang
