import SelectorLang.Proofs.Shrinking
import SelectorLang.Selector.Equality

set_option autoImplicit false

namespace SelectorLang

/-- What is compiled on the way down: a group for a class, or the query of a reference for the class
that it names. -/
inductive Site where
  | group (cls : EntityClass) (group : Group)
  | query (cls : EntityClass) (text : List Char)

namespace Site

def cls : Site → EntityClass
  | .group cls _ => cls
  | .query cls _ => cls

def text : Site → List Char
  | .group _ inner => inner.body
  | .query _ text => text

/-- The text that the clauses are read from. Only queries have directives. -/
def plain : Site → List Char
  | .group _ inner => (split inner.body).remainder
  | .query cls text => (Directive.extract (split text).remainder { className := cls.name }).1

theorem byteLength_plain (site : Site) :
    Text.byteLength site.plain ≤ Text.byteLength site.text := by
  cases site with
  | group cls inner => exact byteLength_remainder inner.body
  | query cls text =>
    have outside := byteLength_remainder text
    have directives := Directive.byteLength_extract (split text).remainder { className := cls.name }
    exact Nat.le_trans directives outside

end Site

namespace Compiler

/-- The sites that compiling at a site asks for. -/
inductive Calls (compiler : Compiler) (site : Site) : Site → Prop
  | group {group : Group} (member : group ∈ (split site.text).groups) :
      Calls compiler site (.group site.cls group)
  | query {mention : Mention} {target : EntityClass} (member : mention ∈ Stage.mentions site.plain)
      (known : compiler.class? (String.ofList mention.className) = some target) :
      Calls compiler site (.query target mention.text)

/-- The sites that compiling a text asks for, each with its depth. -/
inductive Visits (compiler : Compiler) (cls : EntityClass) (text : List Char) : Nat → Site → Prop
  | here : Visits compiler cls text 0 (.query cls text)
  | deeper {level : Nat} {site next : Site} (visited : Visits compiler cls text level site)
      (call : compiler.Calls site next) : Visits compiler cls text (level + 1) next

/-- Two ways of compiling what stands deeper that answer alike wherever a site asks. -/
structure AgreeAt (compiler : Compiler) (site : Site) (left right : Inner) : Prop where
  group : ∀ group, compiler.Calls site (.group site.cls group) →
    left.group group = right.group group
  query : ∀ target text, compiler.Calls site (.query target text) →
    left.query target text = right.query target text

/-- The compilers of a level above others; a level leaves nothing out itself. -/
def above (compiler : Compiler) (collapse : Selector → Selector) (deeper : EntityClass → Inner)
    (cls : EntityClass) : Inner :=
  { group := fun group => compiler.groupWith collapse (deeper cls) cls group
    query := fun target text => some (compiler.queryWith collapse (deeper target) target text) }

/-- Compilers that never leave anything out: they stand above themselves. -/
def Limitless (compiler : Compiler) (collapse : Selector → Selector)
    (inners : EntityClass → Inner) : Prop :=
  compiler.above collapse inners = inners

variable {compiler : Compiler} {collapse : Selector → Selector}

theorem above_group (deeper : EntityClass → Inner) (cls : EntityClass) (group : Group) :
    (compiler.above collapse deeper cls).group group =
      compiler.groupWith collapse (deeper cls) cls group := by
  simp only [above]

theorem above_query (deeper : EntityClass → Inner) (cls target : EntityClass) (text : List Char) :
    (compiler.above collapse deeper cls).query target text =
      some (compiler.queryWith collapse (deeper target) target text) := by
  simp only [above]

/-- Every call is made with a shorter text. -/
theorem byteLength_of_calls {site next : Site} (call : compiler.Calls site next) :
    Text.byteLength next.text < Text.byteLength site.text := by
  cases call with
  | group member => exact Group.byteLength_body_lt member
  | query member known =>
    have inside := Stage.byteLength_mention_lt member
    have around := site.byteLength_plain
    exact Nat.lt_of_lt_of_le inside around

theorem fill_congr {site : Site} {left right : Inner} (agree : compiler.AgreeAt site left right)
    (kind : Combinator) :
    compiler.fill left kind (split site.text).groups site.plain =
      compiler.fill right kind (split site.text).groups site.plain := by
  have nested : (split site.text).groups.filterMap left.group =
      (split site.text).groups.filterMap right.group := by
    apply List.filterMap_congr
    intro group member
    exact agree.group group (.group member)
  have references : (Stage.mentions site.plain).filterMap (Mention.clause (compiler.embed left)) =
      (Stage.mentions site.plain).filterMap (Mention.clause (compiler.embed right)) := by
    apply List.filterMap_congr
    intro mention member
    unfold Mention.clause embed
    cases known : compiler.class? (String.ofList mention.className) with
    | none => rfl
    | some target =>
      simp only [Option.bind_some]
      rw [agree.query target mention.text (.query member known)]
  rw [fill, fill, Stage.runAll_all, Stage.runAll_all, nested, references]

theorem groupWith_congr {cls : EntityClass} {group : Group} {left right : Inner}
    (agree : compiler.AgreeAt (.group cls group) left right) :
    compiler.groupWith collapse left cls group = compiler.groupWith collapse right cls group := by
  have same := fill_congr agree group.kind
  simp only [Site.text, Site.plain] at same
  simp only [groupWith, same]

theorem queryWith_congr {cls : EntityClass} {text : List Char} {left right : Inner}
    (agree : compiler.AgreeAt (.query cls text) left right) :
    compiler.queryWith collapse left cls text = compiler.queryWith collapse right cls text := by
  have same := fill_congr agree .allOf
  simp only [Site.text, Site.plain] at same
  simp only [queryWith, same]

/-- The compilers leave nothing out for so many levels. -/
def Covers (compiler : Compiler) (collapse : Selector → Selector) :
    Nat → (EntityClass → Inner) → Prop
  | 0, _ => True
  | levels + 1, inners =>
    ∃ deeper, compiler.Covers collapse levels deeper ∧ compiler.above collapse deeper = inners

theorem covers_innerAt {levels depth : Nat} (enough : levels ≤ depth) :
    compiler.Covers collapse levels (compiler.innerAt collapse depth) := by
  induction levels generalizing depth with
  | zero => trivial
  | succ levels ih =>
    obtain ⟨below, rfl⟩ : ∃ below, depth = below + 1 := ⟨depth - 1, by omega⟩
    exact ⟨compiler.innerAt collapse below, ih (by omega), rfl⟩

theorem Limitless.covers {inners : EntityClass → Inner}
    (limitless : compiler.Limitless collapse inners) (levels : Nat) :
    compiler.Covers collapse levels inners := by
  induction levels with
  | zero => trivial
  | succ levels ih => exact ⟨inners, ih, limitless⟩

/-- Compilers that cover as many levels as a text has bytes answer alike wherever it asks. -/
theorem agreeAt_of_covers {levels : Nat} {site : Site} {left right : EntityClass → Inner}
    (size : Text.byteLength site.text ≤ levels) (first : compiler.Covers collapse levels left)
    (second : compiler.Covers collapse levels right) :
    compiler.AgreeAt site (left site.cls) (right site.cls) := by
  induction levels generalizing site left right with
  | zero =>
    -- A text without bytes asks for nothing.
    have silent : ∀ next, ¬compiler.Calls site next := by
      intro next call
      have shorter := byteLength_of_calls call
      omega
    exact ⟨fun group call => absurd call (silent _), fun target text call => absurd call (silent _)⟩
  | succ levels ih =>
    obtain ⟨leftDeeper, leftCovers, rfl⟩ := first
    obtain ⟨rightDeeper, rightCovers, rfl⟩ := second
    have fits : ∀ next, compiler.Calls site next → Text.byteLength next.text ≤ levels := by
      intro next call
      have shorter := byteLength_of_calls call
      omega
    constructor
    · intro group call
      have agree : compiler.AgreeAt (.group site.cls group) (leftDeeper site.cls)
          (rightDeeper site.cls) :=
        ih (fits _ call) leftCovers rightCovers
      rw [above_group, above_group, groupWith_congr agree]
    · intro target text call
      have agree : compiler.AgreeAt (.query target text) (leftDeeper target) (rightDeeper target) :=
        ih (fits _ call) leftCovers rightCovers
      rw [above_query, above_query, queryWith_congr agree]

/-- The compilers that go as deep as what they are asked for is long. -/
def unlimited (compiler : Compiler) (collapse : Selector → Selector) : EntityClass → Inner :=
  fun cls =>
    { group := fun group => compiler.groupWith collapse
        (compiler.innerAt collapse (Text.byteLength group.body) cls) cls group
      query := fun target text => some (compiler.queryWith collapse
        (compiler.innerAt collapse (Text.byteLength text) target) target text) }

theorem unlimited_group (cls : EntityClass) (group : Group) :
    (compiler.unlimited collapse cls).group group = compiler.groupWith collapse
      (compiler.innerAt collapse (Text.byteLength group.body) cls) cls group := by
  simp only [unlimited]

theorem unlimited_query (cls target : EntityClass) (text : List Char) :
    (compiler.unlimited collapse cls).query target text = some (compiler.queryWith collapse
      (compiler.innerAt collapse (Text.byteLength text) target) target text) := by
  simp only [unlimited]

theorem agreeAt_unlimited (site : Site) :
    compiler.AgreeAt site (compiler.innerAt collapse (Text.byteLength site.text) site.cls)
      (compiler.unlimited collapse site.cls) := by
  have below : ∀ next, compiler.Calls site next →
      ∃ depth, Text.byteLength site.text = depth + 1 ∧ Text.byteLength next.text ≤ depth := by
    intro next call
    have shorter := byteLength_of_calls call
    exact ⟨Text.byteLength site.text - 1, by omega, by omega⟩
  constructor
  · intro group call
    obtain ⟨depth, size, fits⟩ := below _ call
    have agree : compiler.AgreeAt (.group site.cls group)
        (compiler.innerAt collapse depth site.cls)
        (compiler.innerAt collapse (Text.byteLength group.body) site.cls) :=
      agreeAt_of_covers (Nat.le_refl _) (covers_innerAt fits) (covers_innerAt (Nat.le_refl _))
    rw [size, unlimited_group, ← groupWith_congr agree]
    simp only [innerAt]
  · intro target text call
    obtain ⟨depth, size, fits⟩ := below _ call
    have agree : compiler.AgreeAt (.query target text) (compiler.innerAt collapse depth target)
        (compiler.innerAt collapse (Text.byteLength text) target) :=
      agreeAt_of_covers (Nat.le_refl _) (covers_innerAt fits) (covers_innerAt (Nat.le_refl _))
    rw [size, unlimited_query, ← queryWith_congr agree]
    simp only [innerAt]

theorem inners_ext {first second : EntityClass → Inner}
    (groups : ∀ cls group, (first cls).group group = (second cls).group group)
    (queries : ∀ cls target text, (first cls).query target text = (second cls).query target text) :
    first = second := by
  funext cls
  have group : (first cls).group = (second cls).group := funext (groups cls)
  have query : (first cls).query = (second cls).query :=
    funext (fun target => funext (queries cls target))
  cases left : first cls
  cases right : second cls
  rw [left, right] at group query
  simp only at group query
  rw [group, query]

theorem limitless_unlimited (compiler : Compiler) (collapse : Selector → Selector) :
    compiler.Limitless collapse (compiler.unlimited collapse) := by
  unfold Limitless
  apply inners_ext
  · intro cls group
    have agree : compiler.AgreeAt (.group cls group)
        (compiler.innerAt collapse (Text.byteLength group.body) cls)
        (compiler.unlimited collapse cls) :=
      agreeAt_unlimited (.group cls group)
    rw [above_group, unlimited_group, groupWith_congr agree]
  · intro cls target text
    have agree : compiler.AgreeAt (.query target text)
        (compiler.innerAt collapse (Text.byteLength text) target)
        (compiler.unlimited collapse target) :=
      agreeAt_unlimited (.query target text)
    rw [above_query, unlimited_query, queryWith_congr agree]

/-- There is one way to leave nothing out. -/
theorem Limitless.eq {first second : EntityClass → Inner}
    (left : compiler.Limitless collapse first) (right : compiler.Limitless collapse second) :
    first = second := by
  have agree : ∀ site : Site, compiler.AgreeAt site (first site.cls) (second site.cls) :=
    fun site => agreeAt_of_covers (Nat.le_refl _) (left.covers _) (right.covers _)
  unfold Limitless at left right
  rw [← left, ← right]
  apply inners_ext
  · intro cls group
    have same : compiler.AgreeAt (.group cls group) (first cls) (second cls) := agree _
    rw [above_group, above_group, groupWith_congr same]
  · intro cls target text
    have same : compiler.AgreeAt (.query target text) (first target) (second target) := agree _
    rw [above_query, above_query, queryWith_congr same]

/-- The limit is looked at nowhere but where compiling begins. -/
theorem innerAt_maxDepth (compiler : Compiler) (collapse : Selector → Selector)
    (limit depth : Nat) :
    ({ compiler with maxDepth := limit } : Compiler).innerAt collapse depth =
      compiler.innerAt collapse depth := by
  induction depth with
  | zero => rfl
  | succ below ih =>
    funext cls
    unfold innerAt
    rw [ih]
    rfl

theorem compile_of_limitless {inners : EntityClass → Inner}
    (limitless : compiler.Limitless Selector.simplify inners) (cls : EntityClass) {text : String}
    {limit : Nat} (enough : Text.byteLength text.toList ≤ limit) :
    ({ compiler with maxDepth := limit } : Compiler).compile text cls =
      compiler.queryWith Selector.simplify (inners cls) cls text.toList := by
  have agree : compiler.AgreeAt (.query cls text.toList)
      (compiler.innerAt Selector.simplify limit cls) (inners cls) :=
    agreeAt_of_covers (Nat.le_refl _) (covers_innerAt enough) (limitless.covers _)
  unfold compile queryAt
  rw [innerAt_maxDepth, ← queryWith_congr agree]
  rfl

/-- On the way down every level costs a byte. -/
theorem level_of_visits {cls : EntityClass} {text : List Char} {level : Nat} {site : Site}
    (visits : compiler.Visits cls text level site) :
    level + Text.byteLength site.text ≤ Text.byteLength text := by
  induction visits with
  | here =>
    rw [Site.text]
    omega
  | deeper _ call ih =>
    have shorter := byteLength_of_calls call
    omega

/-- A limit of at least the text's size in bytes limits nothing: under any two of them the text
compiles to the query of the one compiler that never leaves a group or a reference out, and no site
is deeper than the text is long, nor is the next level too large for a word of 64 bits. -/
theorem compile_saturates (compiler : Compiler) (cls : EntityClass) (text : String)
    (first second : Nat) (enough : text.utf8ByteSize ≤ first)
    (sufficient : text.utf8ByteSize ≤ second) :
    ({ compiler with maxDepth := first } : Compiler).compile text cls =
        ({ compiler with maxDepth := second } : Compiler).compile text cls ∧
      (∃! inners, compiler.Limitless Selector.simplify inners) ∧
      (∀ inners, compiler.Limitless Selector.simplify inners →
        ({ compiler with maxDepth := first } : Compiler).compile text cls =
          compiler.queryWith Selector.simplify (inners cls) cls text.toList) ∧
      ∀ level site, compiler.Visits cls text.toList level site →
        level + Text.byteLength site.text ≤ text.utf8ByteSize ∧ level ≤ first ∧
          (text.utf8ByteSize < 0x8000_0000_0000_0000 → level + 1 < 0x1_0000_0000_0000_0000) := by
  have limitless := limitless_unlimited compiler Selector.simplify
  have size := Text.byteLength_toList text
  rw [← size] at enough sufficient
  refine ⟨?_, ⟨_, limitless, fun other own => own.eq limitless⟩, ?_, ?_⟩
  · rw [compile_of_limitless limitless cls enough, compile_of_limitless limitless cls sufficient]
  · intro inners own
    exact compile_of_limitless own cls enough
  · intro level site visits
    have cost := level_of_visits visits
    omega

def linkedCompiler : Compiler := { classes := [⟨"User", []⟩] }

def linkedText : List Char := "(<a> r<\x7bUser (<b> <c>)\x7d>)".toList

def linkedInner : Query :=
  ⟨{ className := "User" }, [{ kind := .allOf, clauses := { tag := ⟨["b", "c"], []⟩ } }]⟩

/-- Under the largest limit of 64 bits nothing of the text is left out. -/
theorem compile_saturates_linked :
    (String.ofList linkedText).utf8ByteSize ≤ 0xFFFF_FFFF_FFFF_FFFF ∧
      (String.ofList linkedText).utf8ByteSize ≤ 25 ∧
      ({ linkedCompiler with maxDepth := 0xFFFF_FFFF_FFFF_FFFF } : Compiler).compile
          (String.ofList linkedText) ⟨"User", []⟩ =
        ⟨{ className := "User" },
          [{ kind := .allOf, clauses := { tag := ⟨["a"], []⟩ },
             subqueries := ⟨[("r", linkedInner)], []⟩ }]⟩ := by
  have size : (String.ofList linkedText).utf8ByteSize = 25 := by
    rw [← Text.byteLength_eq]
    decide +kernel
  have evaluated : ({ linkedCompiler with maxDepth := 25 } : Compiler).queryAt Selector.simplify 25
      ⟨"User", []⟩ linkedText =
        ⟨{ className := "User" },
          [{ kind := .allOf, clauses := { tag := ⟨["a"], []⟩ },
             subqueries := ⟨[("r", linkedInner)], []⟩ }]⟩ := by
    decide +kernel
  refine ⟨by omega, by omega, ?_⟩
  rw [(compile_saturates linkedCompiler ⟨"User", []⟩ (String.ofList linkedText)
    0xFFFF_FFFF_FFFF_FFFF 25 (by omega) (by omega)).1, compile, String.toList_ofList]
  exact evaluated

end Compiler

end SelectorLang
