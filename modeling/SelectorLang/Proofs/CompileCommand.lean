import SelectorLang.Command.Run
import SelectorLang.Proofs.Embedding
import SelectorLang.Proofs.Histories

set_option autoImplicit false

namespace SelectorLang

namespace Compiler

/-- A compiler with some settings that knows the classes of some names, and no others. -/
structure Serves (compiler : Compiler) (fields : List String) (depth : Nat)
    (known : String → Prop) : Prop where
  fields : compiler.defaultFields = fields
  depth : compiler.maxDepth = depth
  handler : compiler.bareHandler = BareText.search
  classes : ∀ name cls, compiler.class? name = some cls ↔ known name ∧ cls = { name := name }

namespace Serves

variable {compiler other : Compiler} {fields : List String} {depth : Nat} {known : String → Prop}

theorem alike (serves : compiler.Serves fields depth known)
    (others : other.Serves fields depth known) : compiler.Alike other where
  fields := serves.fields.trans others.fields.symm
  depth := serves.depth.trans others.depth.symm
  handler := serves.handler.trans others.handler.symm
  classes := by
    intro name
    apply Option.ext
    intro cls
    rw [serves.classes, others.classes]

theorem congr {names : String → Prop} (same : ∀ name, known name ↔ names name)
    (serves : compiler.Serves fields depth known) : compiler.Serves fields depth names where
  fields := serves.fields
  depth := serves.depth
  handler := serves.handler
  classes := by
    intro name cls
    rw [serves.classes, same]

theorem register (serves : compiler.Serves fields depth known) (name : String) :
    (compiler.register { name := name }).Serves fields depth
      (fun asked => asked = name ∨ known asked) where
  fields := serves.fields
  depth := serves.depth
  handler := serves.handler
  classes := by
    intro asked cls
    rw [class?_register]
    by_cases own : name = asked
    · subst own
      simp only [↓reduceIte, Option.some.injEq, true_or, true_and]
      exact eq_comm
    · have apart : asked ≠ name := fun same => own same.symm
      rw [if_neg own, serves.classes]
      simp only [apart, false_or]

theorem registerAll (names : List String) (serves : compiler.Serves fields depth known) :
    (names.foldl (fun compiler name => compiler.register { name := name }) compiler).Serves fields
      depth (fun asked => asked ∈ names ∨ known asked) := by
  induction names generalizing compiler known with
  | nil => simpa using serves
  | cons name others ih =>
    apply (ih (serves.register name)).congr
    intro asked
    rw [List.mem_cons, or_left_comm, or_assoc]

end Serves

theorem serves_ofSettings (settings : CompilerSettings) :
    (ofSettings settings).Serves settings.defaultFields settings.maxDepth
      (· ∈ settings.classes) := by
  have empty : Serves { defaultFields := settings.defaultFields, maxDepth := settings.maxDepth }
      settings.defaultFields settings.maxDepth (fun _ => False) :=
    ⟨rfl, rfl, rfl, fun name cls => ⟨nofun, fun known => known.1.elim⟩⟩
  exact (empty.registerAll settings.classes).congr (fun asked => or_iff_left id)

end Compiler

namespace Command

def searchedFields (settings : CompilerSettings) (fields : List String) : List String :=
  if fields.isEmpty then settings.defaultFields else fields

/-- The classes of the compile command: those of the configuration, those of the arguments, and the
one that is asked for. -/
def Knows (settings : CompilerSettings) (className : String) (knownClasses : List String)
    (name : String) : Prop :=
  name ∈ settings.classes ∨ name ∈ knownClasses ∨ name = className

def compileSettings (settings : CompilerSettings) (className : String)
    (fields knownClasses : List String) : CompilerSettings where
  defaultFields := searchedFields settings fields
  maxDepth := settings.maxDepth
  classes := settings.classes ++ knownClasses ++ [className]

theorem serves_compileSettings (settings : CompilerSettings) (className : String)
    (fields knownClasses : List String) :
    (Compiler.ofSettings (compileSettings settings className fields knownClasses)).Serves
      (searchedFields settings fields) settings.maxDepth
      (Knows settings className knownClasses) := by
  apply (Compiler.serves_ofSettings _).congr
  intro name
  rw [compileSettings, List.mem_append, List.mem_append, List.mem_singleton, or_assoc, Knows]

/-- The command compiles as any compiler does that has its settings and classes. -/
theorem compileQuery_eq {settings : CompilerSettings} {className : String}
    {fields knownClasses : List String} {library : Compiler}
    (serves : library.Serves (searchedFields settings fields) settings.maxDepth
      (Knows settings className knownClasses)) (query : String) :
    compileQuery settings query className fields knownClasses =
      .ok (library.compile query { name := className }) := by
  have asked : compileQuery settings query className fields knownClasses =
      (Compiler.ofSettings (compileSettings settings className fields knownClasses)).compileFor
        query className := rfl
  have alike := (serves_compileSettings settings className fields knownClasses).alike serves
  have target : library.class? className = some { name := className } :=
    (serves.classes _ _).mpr ⟨Or.inr (Or.inr rfl), rfl⟩
  rw [asked, alike.compileFor, Compiler.compileFor, target]

/-- A reference to the class that is asked for is compiled for that class, one level deeper. -/
theorem compile_ownReference {library : Compiler} {className : String} (target : ClassName)
    (own : String.ofList target.chars = className)
    (registered : library.class? className = some { name := className })
    (deep : 0 < library.maxDepth) (field : FieldName) (query : List Char)
    (undirected : Directive.extract (referenceText field target query) { className := className } =
      (referenceText field target query, { className := className })) :
    library.compile (String.ofList (referenceText field target query)) { name := className } =
      ⟨{ className := className },
        [{ kind := .allOf
           subqueries := ⟨[(String.ofList field.chars,
             library.queryAt Selector.simplify (library.maxDepth - 1) { name := className }
               (Text.trim query))], []⟩ }]⟩ := by
  have filled := library.fill_reference field target deep { name := className } query
  have silent : library.bareSelector { name := className } [' '] = none :=
    Compiler.bareSelector_of_words library _ rfl
  have said : library.referenceClause field target query =
      some ⟨false, .subquery (String.ofList field.chars)
        (library.queryAt Selector.simplify (library.maxDepth - 1) { name := className }
          (Text.trim query))⟩ := by
    rw [Compiler.referenceClause, own, registered, Option.map_some]
  have compiled : library.compile (String.ofList (referenceText field target query))
      { name := className } =
        ⟨{ className := className }, [library.referenceSelector field target query]⟩ := by
    simp only [Compiler.compile, Compiler.queryAt, Compiler.queryWith, String.toList_ofList,
      split_reference, undirected, filled, silent, library.simplify_referenceSelector,
      Option.isSome_none, Bool.and_false, Bool.false_eq_true, ↓reduceIte, Option.toList_none,
      List.append_nil]
  rw [compiled, Compiler.referenceSelector, said]
  rfl

def printed (pretty : Bool) (query : Query) : String :=
  (if pretty then query.toJson.indented else query.toJson.compact) ++ "\n"

/-- Once its arguments are accepted and the configuration is loaded, the compile command prints what
a compiler compiles for the class: any that looks bare text up in the fields of the arguments, or
those of the configuration where there are none, that has the configuration's depth and knows the
classes of the configuration, of the arguments and the one asked for. Only which classes these are
counts, not where they come from, how often and in which order, and a reference to the class asked
for is compiled as well. -/
theorem run_compile {m : Type → Type} [Monad m] [LawfulMonad m] (files : FileAccess m)
    (environment : Config.Environment) (usualPaths : List String) (now : Instant)
    {arguments : List String} {path : Option String} {query className : String}
    {fields knownClasses : List String} {pretty : Bool}
    (accepted : readArguments? arguments =
      some (.run path (.compile query className fields knownClasses pretty)))
    {library : Config → Compiler}
    (serves : ∀ config : Config, (library config).Serves (searchedFields config.compiler fields)
      config.compiler.maxDepth (Knows config.compiler className knownClasses)) :
    (run files environment usualPaths now arguments = do
      match ← loadConfig files environment usualPaths path with
      | .error error => return { code := 1, error := some ("Error: " ++ error.message) }
      | .ok config => return {
          code := 0
          output := printed pretty ((library config).compile query { name := className }) }) ∧
    (∀ (config other : Config) (otherKnown : List String),
      searchedFields config.compiler fields = searchedFields other.compiler fields →
      config.compiler.maxDepth = other.compiler.maxDepth →
      (∀ name, Knows config.compiler className knownClasses name ↔
        Knows other.compiler className otherKnown name) →
      execute files now config (.compile query className fields knownClasses pretty) =
        execute files now other (.compile query className fields otherKnown pretty)) ∧
    ∀ (config : Config) (target : ClassName), String.ofList target.chars = className →
      0 < config.compiler.maxDepth → ∀ (field : FieldName) (inner : List Char),
        Directive.extract (referenceText field target inner) { className := className } =
            (referenceText field target inner, { className := className }) →
          (library config).compile (String.ofList (referenceText field target inner))
              { name := className } =
            ⟨{ className := className },
              [{ kind := .allOf
                 subqueries := ⟨[(String.ofList field.chars,
                   (library config).queryAt Selector.simplify (config.compiler.maxDepth - 1)
                     { name := className } (Text.trim inner))], []⟩ }]⟩ := by
  refine ⟨?_, ?_, ?_⟩
  · simp only [run, accepted]
    congr 1
    funext loaded
    cases loaded with
    | error reason => rfl
    | ok config =>
      simp only [execute, compileQuery_eq (serves config), pure_bind]
      rfl
  · intro config other otherKnown sameFields sameDepth same
    have others : (library config).Serves (searchedFields other.compiler fields)
        other.compiler.maxDepth (Knows other.compiler className otherKnown) := by
      rw [← sameFields, ← sameDepth]
      exact (serves config).congr same
    simp only [execute, compileQuery_eq (serves config), compileQuery_eq others]
  · intro config target own deep field inner undirected
    rw [← (serves config).depth] at deep ⊢
    have registered : (library config).class? className = some { name := className } :=
      ((serves config).classes _ _).mpr ⟨Or.inr (Or.inr rfl), rfl⟩
    exact compile_ownReference target own registered deep field inner undirected

def noFiles : FileAccess Id where
  read _ := .error .notFound
  write _ _ := .error .notFound
  makeDirectory _ := .error .notFound
  isDirectory _ := false

def sampleArguments : List String :=
  ["parse", "-k", "User", "lead<\x7bTeam big\x7d> bob", "--class", "Team", "-f", "mail"]

/-- A compiler that has the classes of the arguments in another order, and one of them twice. -/
def sampleLibrary (config : Config) : Compiler :=
  Compiler.ofSettings
    { config.compiler with
      defaultFields := ["mail"]
      classes := ["Team", "User", "Team"] ++ config.compiler.classes }

def mailSearch (pattern : String) : Selector :=
  { kind := .anyOf, clauses := { likeFold := ⟨[("mail", pattern)], []⟩ } }

def sampleQuery : Query :=
  ⟨{ className := "Team" },
    [{ kind := .allOf
       subqueries := ⟨[("lead", ⟨{ className := "Team" }, [mailSearch "%big%"]⟩)], []⟩ },
      mailSearch "%bob%"]⟩

/-- A query with a reference to its own class, which is named by the arguments alone. -/
theorem run_compile_sample :
    readArguments? sampleArguments = some (.run none
      (.compile "lead<\x7bTeam big\x7d> bob" "Team" ["mail"] ["User"] false)) ∧
    run noFiles (fun _ => none) [] ⟨0, 0, by decide, by decide⟩ sampleArguments =
      { code := 0, output := printed false sampleQuery } := by
  have accepted : readArguments? sampleArguments = some (.run none
      (.compile "lead<\x7bTeam big\x7d> bob" "Team" ["mail"] ["User"] false)) := by
    decide +kernel
  have serves : ∀ config : Config, (sampleLibrary config).Serves
      (searchedFields config.compiler ["mail"]) config.compiler.maxDepth
      (Knows config.compiler "Team" ["User"]) := by
    intro config
    apply (Compiler.serves_ofSettings _).congr
    intro name
    simp only [Knows, List.mem_append, List.mem_cons, List.not_mem_nil, or_false]
    grind
  have compiled : (sampleLibrary {}).compile "lead<\x7bTeam big\x7d> bob" { name := "Team" } =
      sampleQuery := by
    decide +kernel
  refine ⟨accepted, ?_⟩
  rw [(run_compile noFiles (fun _ => none) [] _ accepted serves).1, ← compiled]
  rfl

end Command

end SelectorLang
