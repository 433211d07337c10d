import Mathlib.Data.List.Induction
import Mathlib.Data.List.Nodup
import Mathlib.Data.String.Basic
import SelectorLang.Selector.Equality
import SelectorLang.Session

set_option autoImplicit false

namespace SelectorLang

namespace Compiler

/-- Two compilers with the same settings and the same class for every name. -/
structure Alike (left right : Compiler) : Prop where
  fields : left.defaultFields = right.defaultFields
  handler : left.bareHandler = right.bareHandler
  depth : left.maxDepth = right.maxDepth
  classes : ∀ name, left.class? name = right.class? name

def Distinct (compiler : Compiler) : Prop := (compiler.classes.map EntityClass.name).Nodup

namespace Alike

variable {left right : Compiler}

theorem fill (alike : left.Alike right) (inner : Inner) : left.fill inner = right.fill inner := by
  have embed : left.embed inner = right.embed inner := by
    funext className text
    unfold Compiler.embed
    rw [alike.classes]
  funext kind groups text
  unfold Compiler.fill
  rw [embed]

theorem bareSelector (alike : left.Alike right) : left.bareSelector = right.bareSelector := by
  funext cls rest
  unfold Compiler.bareSelector Compiler.searchFields
  rw [alike.fields, alike.handler]

theorem innerAt (alike : left.Alike right) (collapse : Selector → Selector) (depth : Nat) :
    left.innerAt collapse depth = right.innerAt collapse depth := by
  induction depth with
  | zero => rfl
  | succ below ih =>
    funext cls
    simp only [Compiler.innerAt, Compiler.groupWith, Compiler.queryWith, ih, alike.fill,
      alike.bareSelector]

theorem compile (alike : left.Alike right) : left.compile = right.compile := by
  funext text cls
  simp only [Compiler.compile, Compiler.queryAt, Compiler.queryWith, alike.depth, alike.innerAt,
    alike.fill, alike.bareSelector]

theorem compileFor (alike : left.Alike right) : left.compileFor = right.compileFor := by
  funext text name
  unfold Compiler.compileFor
  rw [alike.classes, alike.compile]

end Alike

theorem class?_register (compiler : Compiler) (cls : EntityClass) (name : String) :
    (compiler.register cls).class? name =
      if cls.name = name then some cls else compiler.class? name := by
  unfold register class?
  rw [List.find?_cons]
  by_cases own : cls.name = name
  · simp only [own, beq_self_eq_true, ↓reduceIte]
  · -- What the new class replaced had another name than the one looked for.
    have kept : ∀ other : EntityClass,
        (other.name != cls.name) = true ∧ (other.name == name) = true ↔
        (other.name == name) = true := by
      intro other
      rw [bne_iff_ne, beq_iff_eq, and_iff_right_iff_imp]
      rintro rfl wrong
      exact own wrong.symm
    simp only [beq_eq_false_iff_ne.mpr own, own, ↓reduceIte, List.find?_filter, kept,
      Bool.decide_eq_true]

theorem Distinct.register {compiler : Compiler} (distinct : compiler.Distinct) (cls : EntityClass) :
    (compiler.register cls).Distinct := by
  unfold Distinct Compiler.register
  rw [List.map_cons, List.nodup_cons]
  constructor
  · intro member
    obtain ⟨other, listed, same⟩ := List.mem_map.mp member
    have differs := (List.mem_filter.mp listed).2
    rw [same, bne_self_eq_false] at differs
    exact Bool.noConfusion differs
  · exact List.Nodup.sublist (List.filter_sublist.map _) distinct

theorem mem_names_iff (compiler : Compiler) (name : String) :
    name ∈ compiler.classes.map EntityClass.name ↔ compiler.class? name ≠ none := by
  unfold class?
  rw [List.mem_map, ne_eq, List.find?_eq_none]
  simp only [beq_iff_eq, not_forall, not_not, exists_prop]

/-- A list of different names is sorted in one way only. -/
theorem classNames_of_alike {left right : Compiler} (alike : left.Alike right)
    (leftDistinct : left.Distinct) (rightDistinct : right.Distinct) :
    left.classNames = right.classNames := by
  have same : (left.classes.map EntityClass.name).Perm (right.classes.map EntityClass.name) := by
    rw [List.perm_ext_iff_of_nodup leftDistinct rightDistinct]
    intro name
    rw [mem_names_iff, mem_names_iff, alike.classes]
  have order : ∀ first second : String, (!decide (second < first)) = true ↔ first ≤ second := by
    intro first second
    rw [Bool.not_eq_true', decide_eq_false_iff_not, not_lt]
  have sorted : ∀ names : List String, (names.mergeSort
      (fun first second => !decide (second < first))).Pairwise (fun first second =>
        (!decide (second < first)) = true) := by
    intro names
    apply List.pairwise_mergeSort
    · intro first second third
      rw [order, order, order]
      exact le_trans
    · intro first second
      rw [Bool.or_eq_true, order, order]
      exact le_total first second
  unfold classNames
  apply List.Perm.eq_of_pairwise _ (sorted _) (sorted _)
  · exact (List.mergeSort_perm _ _).trans (same.trans (List.mergeSort_perm _ _).symm)
  · intro first second _ _ below above
    rw [order] at below above
    exact le_antisymm below above

theorem summary_of_alike {left right : Compiler} (alike : left.Alike right)
    (leftDistinct : left.Distinct) (rightDistinct : right.Distinct) :
    left.summary = right.summary := by
  unfold summary
  rw [alike.fields, alike.depth, classNames_of_alike alike leftDistinct rightDistinct]

end Compiler

namespace Session

inductive Setting where
  | fields
  | depth
  | handler
  | cls (name : String)
deriving DecidableEq, Repr

namespace Step

def setting : Step → Option Setting
  | .register cls => some (.cls cls.name)
  | .setFields _ => some .fields
  | .setDepth _ => some .depth
  | .setHandler _ => some .handler
  | .copy | .look _ | .compile _ _ | .compileFor _ _ => none

def fields? : Step → Option (List String)
  | .setFields fields => some fields
  | _ => none

def depth? : Step → Option Nat
  | .setDepth depth => some depth
  | _ => none

def handler? : Step → Option BareHandler
  | .setHandler handler => some handler
  | _ => none

def registered? (name : String) : Step → Option EntityClass
  | .register cls => if cls.name = name then some cls else none
  | _ => none

end Step

/-- What is read of steps is what one setting is set to. -/
def Reads {α : Type} (setting : Setting) (read : Step → Option α) : Prop :=
  ∀ step : Step, step.setting ≠ some setting → read step = none

theorem reads_fields : Reads .fields Step.fields? := by
  intro step other
  cases step with
  | setFields => exact absurd rfl other
  | _ => rfl

theorem reads_depth : Reads .depth Step.depth? := by
  intro step other
  cases step with
  | setDepth => exact absurd rfl other
  | _ => rfl

theorem reads_handler : Reads .handler Step.handler? := by
  intro step other
  cases step with
  | setHandler => exact absurd rfl other
  | _ => rfl

theorem reads_registered (name : String) : Reads (.cls name) (Step.registered? name) := by
  intro step other
  cases step with
  | register cls =>
    apply if_neg
    rintro rfl
    exact other rfl
  | _ => rfl

/-- What the latest step says of which something can be read. -/
def latest {α : Type} (read : Step → Option α) (steps : List Step) : Option α :=
  steps.reverse.findSome? read

section

variable {α : Type} {read : Step → Option α}

theorem latest_append (front back : List Step) :
    latest read (front ++ back) = (latest read back).or (latest read front) := by
  unfold latest
  rw [List.reverse_append, List.findSome?_append]

theorem latest_cons (step : Step) (rest : List Step) :
    latest read (step :: rest) = (latest read rest).or (read step) := by
  have single : latest read [step] = read step := by
    unfold latest
    cases answer : read step <;> simp [answer]
  rw [← List.singleton_append, latest_append, single]

theorem latest_concat (steps : List Step) (step : Step) :
    latest read (steps ++ [step]) = (read step).or (latest read steps) := by
  rw [latest_append, latest_cons]
  rfl

theorem latest_eq_none_iff {steps : List Step} :
    latest read steps = none ↔ ∀ step ∈ steps, read step = none := by
  unfold latest
  rw [List.findSome?_eq_none_iff]
  simp only [List.mem_reverse]

/-- The latest step is one behind which there is none. -/
theorem latest_eq_some_iff {steps : List Step} {value : α} :
    latest read steps = some value ↔ ∃ front step back, steps = front ++ step :: back ∧
      read step = some value ∧ ∀ other ∈ back, read other = none := by
  constructor
  · intro found
    obtain ⟨back, step, front, parts, own, behind⟩ := List.findSome?_eq_some_iff.mp found
    refine ⟨front.reverse, step, back.reverse, ?_, own, ?_⟩
    · rw [← List.reverse_reverse steps, parts]
      simp
    · intro other member
      exact behind other (List.mem_reverse.mp member)
  · rintro ⟨front, step, back, rfl, own, behind⟩
    rw [latest_append, latest_cons, latest_eq_none_iff.mpr behind, own]
    rfl

end

def after (steps : List Step) : Compiler := steps.foldl next {}

theorem after_concat (steps : List Step) (step : Step) :
    after (steps ++ [step]) = next (after steps) step := List.foldl_concat _ _ _ _

/-- A setting is as its latest step leaves it, or as every session begins. -/
theorem settings_after (steps : List Step) :
    (after steps).defaultFields = (latest Step.fields? steps).getD standardFields ∧
      (after steps).maxDepth = (latest Step.depth? steps).getD standardDepth ∧
      (after steps).bareHandler = (latest Step.handler? steps).getD BareText.search := by
  induction steps using List.reverseRecOn with
  | nil => exact ⟨rfl, rfl, rfl⟩
  | append_singleton steps step ih =>
    simp only [after_concat, latest_concat]
    cases step with
    | setFields fields => exact ⟨rfl, ih.2.1, ih.2.2⟩
    | setDepth depth => exact ⟨ih.1, rfl, ih.2.2⟩
    | setHandler handler => exact ⟨ih.1, ih.2.1, rfl⟩
    | _ => exact ih

/-- A name stands for the class that was registered under it last. -/
theorem class?_after (steps : List Step) (name : String) :
    (after steps).class? name = latest (Step.registered? name) steps := by
  induction steps using List.reverseRecOn with
  | nil => rfl
  | append_singleton steps step ih =>
    rw [after_concat, latest_concat]
    cases step with
    | register cls =>
      rw [next, Compiler.class?_register, ih, Step.registered?]
      by_cases own : cls.name = name
      · simp only [own, ↓reduceIte, Option.some_or]
      · simp only [own, ↓reduceIte, Option.none_or]
    | _ => exact ih

theorem distinct_after (steps : List Step) : (after steps).Distinct := by
  induction steps using List.reverseRecOn with
  | nil => exact List.nodup_nil
  | append_singleton steps step ih =>
    rw [after_concat]
    cases step with
    | register cls => exact ih.register cls
    | _ => exact ih

/-- Two histories with the same latest settings and the same latest registration of each name. -/
structure SameSettings (before past : List Step) : Prop where
  fields : latest Step.fields? before = latest Step.fields? past
  depth : latest Step.depth? before = latest Step.depth? past
  handler : latest Step.handler? before = latest Step.handler? past
  classes : ∀ name, latest (Step.registered? name) before = latest (Step.registered? name) past

namespace SameSettings

variable {before past : List Step}

theorem alike (same : SameSettings before past) : (after before).Alike (after past) := by
  obtain ⟨leftFields, leftDepth, leftHandler⟩ := settings_after before
  obtain ⟨rightFields, rightDepth, rightHandler⟩ := settings_after past
  constructor
  · rw [leftFields, rightFields, same.fields]
  · rw [leftHandler, rightHandler, same.handler]
  · rw [leftDepth, rightDepth, same.depth]
  · intro name
    rw [class?_after, class?_after, same.classes]

theorem concat (same : SameSettings before past) (step : Step) :
    SameSettings (before ++ [step]) (past ++ [step]) := by
  constructor
  · rw [latest_concat, latest_concat, same.fields]
  · rw [latest_concat, latest_concat, same.depth]
  · rw [latest_concat, latest_concat, same.handler]
  · intro name
    rw [latest_concat, latest_concat, same.classes]

/-- Any next step is answered alike. -/
theorem reply (same : SameSettings before past) (step : Step) :
    Session.reply (after before) step = Session.reply (after past) step := by
  have summary : (next (after before) step).summary = (next (after past) step).summary := by
    rw [← after_concat, ← after_concat]
    exact Compiler.summary_of_alike (same.concat step).alike (distinct_after _) (distinct_after _)
  cases step with
  | look name => exact congrArg Reply.cls (same.alike.classes name)
  | compile text cls => rw [Session.reply, Session.reply, same.alike.compile]
  | compileFor text name => rw [Session.reply, Session.reply, same.alike.compileFor]
  | _ => exact congrArg Reply.settings summary

theorem runFrom (same : SameSettings before past) (steps : List Step) :
    Session.runFrom (after before) steps = Session.runFrom (after past) steps := by
  induction steps generalizing before past with
  | nil => rfl
  | cons step rest ih =>
    have later := ih (same.concat step)
    rw [after_concat, after_concat] at later
    rw [Session.runFrom, Session.runFrom, same.reply step, later]

end SameSettings

/-- A history made of another by putting steps in that set nothing and by letting steps that set
different things change places, any number of times. -/
inductive Rearranged : List Step → List Step → Prop
  | refl (steps : List Step) : Rearranged steps steps
  | insert (front : List Step) (step : Step) (back : List Step) (idle : step.setting = none) :
      Rearranged (front ++ back) (front ++ step :: back)
  | swap (front : List Step) (first second : Step) (back : List Step)
      (apart : first.setting ≠ second.setting) :
      Rearranged (front ++ first :: second :: back) (front ++ second :: first :: back)
  | trans {before between past : List Step} (left : Rearranged before between)
      (right : Rearranged between past) : Rearranged before past

theorem Rearranged.latest {before past : List Step} (rearranged : Rearranged before past) {α : Type}
    {setting : Setting} {read : Step → Option α} (reads : Reads setting read) :
    latest read before = latest read past := by
  induction rearranged with
  | refl => rfl
  | insert front step back idle =>
    have silent : read step = none := by
      apply reads
      rw [idle]
      exact nofun
    rw [latest_append, latest_append, latest_cons, silent, Option.or_none]
  | swap front first second back apart =>
    have single : (read second).or (read first) = (read first).or (read second) := by
      by_cases own : first.setting = some setting
      · have other : read second = none := reads second (fun same => apart (own.trans same.symm))
        rw [other, Option.none_or, Option.or_none]
      · rw [reads first own, Option.none_or, Option.or_none]
    simp only [latest_append, latest_cons, Option.or_assoc, single]
  | trans _ _ left right => exact left.trans right

theorem Rearranged.sameSettings {before past : List Step} (rearranged : Rearranged before past) :
    SameSettings before past :=
  ⟨rearranged.latest reads_fields, rearranged.latest reads_depth, rearranged.latest reads_handler,
    fun name => rearranged.latest (reads_registered name)⟩

theorem runFrom_append (compiler : Compiler) (front back : List Step) :
    runFrom compiler (front ++ back) =
      runFrom compiler front ++ runFrom (front.foldl next compiler) back := by
  induction front generalizing compiler with
  | nil => rfl
  | cons step rest ih => exact congrArg (reply compiler step :: ·) (ih (next compiler step))

/-- A name is unknown as long as no step has registered it. -/
theorem unknown_iff (steps : List Step) (name : String) :
    latest (Step.registered? name) steps = none ↔
      ∀ cls, Step.register cls ∈ steps → cls.name ≠ name := by
  rw [latest_eq_none_iff]
  constructor
  · intro silent cls member own
    have absent := silent _ member
    rw [Step.registered?, own] at absent
    simp at absent
  · intro other step member
    cases step with
    | register cls => exact if_neg (other cls member)
    | _ => rfl

theorem exists_last_registration {steps : List Step} {name : String}
    (known : ∃ cls, Step.register cls ∈ steps ∧ cls.name = name) :
    ∃ front cls back, steps = front ++ .register cls :: back ∧ cls.name = name ∧
      (∀ other, Step.register other ∈ back → other.name ≠ name) ∧
      latest (Step.registered? name) steps = some cls := by
  obtain ⟨cls, found⟩ : ∃ cls, latest (Step.registered? name) steps = some cls := by
    rw [← Option.ne_none_iff_exists']
    intro absent
    obtain ⟨cls, member, own⟩ := known
    exact (unknown_iff steps name).mp absent cls member own
  obtain ⟨front, step, back, parts, own, behind⟩ := latest_eq_some_iff.mp found
  cases step with
  | register last =>
    rw [Step.registered?] at own
    split at own
    · rename_i same
      cases own
      exact ⟨front, cls, back, parts, same,
        (unknown_iff back name).mp (latest_eq_none_iff.mpr behind), found⟩
    · cases own
  | _ => cases own

/-- Wherever in a session a query is compiled for a name, the answer is an error exactly if no step
before registered the name, and otherwise the query for the class that was registered under it last,
and named after it. The answer, and the answers to all steps after it, do not change as long as the
latest settings and the latest registration of each name are the same: not by steps that set
nothing, and not when steps that set different things change places. -/
theorem answer_to_compileFor (before later : List Step) (text name : String) :
    run (before ++ .compileFor text name :: later) =
        run before ++ .compiled ((after before).compileFor text name) ::
          runFrom (after before) later ∧
      ((after before).compileFor text name = .error (.unknownClass name) ↔
        ∀ cls, Step.register cls ∈ before → cls.name ≠ name) ∧
      ((∃ cls, Step.register cls ∈ before ∧ cls.name = name) →
        ∃ front cls back, before = front ++ .register cls :: back ∧ cls.name = name ∧
          (∀ other, Step.register other ∈ back → other.name ≠ name) ∧
          (after before).compileFor text name = .ok ((after before).compile text cls) ∧
          ((after before).compile text cls).options.className = name) ∧
      (∀ past, SameSettings before past →
        ∀ steps, runFrom (after before) steps = runFrom (after past) steps) ∧
      ∀ past, Rearranged before past →
        ∀ steps, runFrom (after before) steps = runFrom (after past) steps := by
  refine ⟨?_, ?_, ?_, ?_, ?_⟩
  · exact runFrom_append {} before (.compileFor text name :: later)
  · rw [← unknown_iff, ← class?_after, Compiler.compileFor]
    cases (after before).class? name with
    | none => simp only
    | some cls => simp only [reduceCtorEq]
  · intro known
    obtain ⟨front, cls, back, parts, own, behind, found⟩ := exists_last_registration known
    refine ⟨front, cls, back, parts, own, behind, ?_, own⟩
    rw [Compiler.compileFor, class?_after, found]
  · intro past same
    exact same.runFrom
  · intro past rearranged
    exact rearranged.sameSettings.runFrom

def twice : List Step :=
  [.register ⟨"User", []⟩, .register ⟨"Group", []⟩, .setDepth 3, .register ⟨"User", ["mail"]⟩]

/-- The registrations of `twice` in another order, with a question in between. -/
def twiceAsked : List Step :=
  [.register ⟨"Group", []⟩, .compileFor "bob" "User", .register ⟨"User", []⟩, .setDepth 3,
    .register ⟨"User", ["mail"]⟩]

def mailQuery : Query :=
  ⟨{ className := "User" },
    [{ kind := .anyOf, clauses := { likeFold := ⟨[("mail", "%bob%")], []⟩ } }]⟩

/-- The second registration of a name counts, whatever came between. -/
theorem answer_to_compileFor_twice :
    Rearranged twice twiceAsked ∧
      (∃ cls, Step.register cls ∈ twice ∧ cls.name = "User") ∧
      (∃ front cls back, twice = front ++ .register cls :: back ∧ cls.name = "User" ∧
        (∀ other, Step.register other ∈ back → other.name ≠ "User") ∧
        (after twice).compileFor (String.ofList "bob".toList) "User" =
          .ok ((after twice).compile (String.ofList "bob".toList) cls) ∧
        ((after twice).compile (String.ofList "bob".toList) cls).options.className = "User") ∧
      runFrom (after twiceAsked) [.compileFor (String.ofList "bob".toList) "User"] =
        [.compiled (.ok mailQuery)] := by
  have swapped : Rearranged twice
      [.register ⟨"Group", []⟩, .register ⟨"User", []⟩, .setDepth 3,
        .register ⟨"User", ["mail"]⟩] :=
    .swap [] _ _ [.setDepth 3, .register ⟨"User", ["mail"]⟩] (by decide)
  have asked : Rearranged
      [.register ⟨"Group", []⟩, .register ⟨"User", []⟩, .setDepth 3, .register ⟨"User", ["mail"]⟩]
      twiceAsked :=
    .insert [.register ⟨"Group", []⟩] _ _ rfl
  have known : ∃ cls, Step.register cls ∈ twice ∧ cls.name = "User" :=
    ⟨⟨"User", []⟩, List.mem_cons_self, rfl⟩
  have evaluated : (after twice).queryAt Selector.simplify 3 ⟨"User", ["mail"]⟩ "bob".toList =
      mailQuery := by
    decide +kernel
  have facts := answer_to_compileFor twice [] (String.ofList "bob".toList) "User"
  refine ⟨swapped.trans asked, known, facts.2.2.1 known, ?_⟩
  rw [← facts.2.2.2.2 twiceAsked (swapped.trans asked)]
  have found : (after twice).class? "User" = some ⟨"User", ["mail"]⟩ := by
    decide +kernel
  rw [runFrom, runFrom, reply, Compiler.compileFor, found]
  simp only [Compiler.compile, String.toList_ofList]
  exact congrArg (fun query => [Reply.compiled (.ok query)]) evaluated

end Session

end SelectorLang
