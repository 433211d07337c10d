import SelectorLang.Command.Arguments
import SelectorLang.Command.Files
import SelectorLang.Config.Basic
import SelectorLang.Config.Sample
import SelectorLang.Escape
import SelectorLang.Json.Printer
import SelectorLang.Selector.Transport
import SelectorLang.Text.Quoted
import SelectorLang.Time.Expression

set_option autoImplicit false

namespace SelectorLang.Command

inductive Action where
  | compile (query : String) (className : String) (fields knownClasses : List String)
      (pretty : Bool)
  | escape (text : String) (kind : String)
  | unescape (text : String) (kind : String)
  | resolveTime (expression : String)
  | sampleConfig (output : Option String)
deriving DecidableEq, Repr

inductive CommandLine where
  | version
  | help
  | run (configPath : Option String) (action : Action)
deriving DecidableEq, Repr

def configOption : OptionSpec := { long := "config", short := some 'c', nonempty := true }

def helpOption : OptionSpec := { long := "help", short := some 'h', takesValue := false }

def versionOption : OptionSpec := { long := "version", short := some 'V', takesValue := false }

def kindOption : OptionSpec := { long := "kind" }

def rootSpec : Spec := ⟨[configOption, helpOption, versionOption], 0⟩

def specs : List (String × Spec) :=
  [("parse", ⟨[configOption, helpOption, { long := "class" },
      { long := "field", short := some 'f', repeatable := true },
      { long := "known-class", short := some 'k', repeatable := true },
      { long := "pretty", short := some 'p', takesValue := false }], 1⟩),
   ("escape", ⟨[configOption, helpOption, kindOption], 1⟩),
   ("unescape", ⟨[configOption, helpOption, kindOption], 1⟩),
   ("resolve-time", ⟨[configOption, helpOption], 1⟩),
   ("config", ⟨[configOption, helpOption,
      { long := "output", short := some 'o', nonempty := true }], 0⟩)]

def ofGiven? (name : String) (given : Given) : Option Action :=
  match name, given.words with
  | "parse", [query] => some <| .compile query ((given.value? "class").getD "Entity")
      (given.values "field") (given.values "known-class") (given.has "pretty")
  | "escape", [text] => some (.escape text ((given.value? "kind").getD "quote"))
  | "unescape", [text] => some (.unescape text ((given.value? "kind").getD "quote"))
  | "resolve-time", [expression] => some (.resolveTime expression)
  | "config", [] => some (.sampleConfig (given.value? "output"))
  | _, _ => none

def asked? (option : String) : Option CommandLine :=
  if option = "version" then some .version else some .help

def readCommand? (outer : Given) (name : String) (arguments : List String) :
    Option CommandLine := do
  let spec ← specs.lookup name
  match spec.read arguments with
  | .refused | .subcommand _ _ _ => none
  | .asked option => asked? option
  | .complete given =>
    let action ← ofGiven? name given
    let configPath := given.value? configOption.long <|> outer.value? configOption.long
    pure (.run configPath action)

/-- Whether the arguments after `help` name at most one command. -/
def isHelpTopic : List String → Bool
  | [] => true
  | [name] => name == "help" || (specs.lookup name).isSome
  | _ => false

def readArguments? (arguments : List String) : Option CommandLine :=
  match rootSpec.read arguments with
  | .refused | .complete _ => none
  | .asked option => asked? option
  | .subcommand outer name rest =>
    if name = "help" then (if isHelpTopic rest then some .help else none)
    else readCommand? outer name rest

def programName : String := "entity-query"

def version : String := "0.1.0"

def usage : String :=
  "Usage: entity-query [OPTIONS] <parse|escape|unescape|resolve-time|config>\n"

inductive CommandError where
  | unreadableConfig (path : String) (reason : FileError)
  | malformedConfig (path : String)
  | unknownKind (name : String)
  | query (error : QueryError)
  | unwritable (path : String)
  | file (reason : FileError)
deriving DecidableEq, Repr

def CommandError.message : CommandError → String
  | .unreadableConfig path reason =>
    "Failed to read config file " ++ Text.quoted path ++ ": " ++ reason.message
  | .malformedConfig path => "Failed to parse config file " ++ Text.quoted path ++ ": "
  | .unknownKind name =>
    "unknown escape kind " ++ Text.quoted name ++ ", use quote, angle or curly"
  | .query error => error.message
  | .unwritable path => "writing " ++ Text.quoted path
  | .file reason => reason.message

/-- The configuration that a command runs with: the file that is named, which has to be readable,
or else the first of the usual ones that is. -/
def loadConfig {m : Type → Type} [Monad m] (files : FileAccess m)
    (environment : Config.Environment) (usualPaths : List String) (path : Option String) :
    m (Except CommandError Config) :=
  match path with
  | some path => do
    match ← files.read path with
    | .error reason => return .error (.unreadableConfig path reason)
    | .ok text =>
      match Config.ofTextWith? environment text with
      | some config => return .ok config
      | none => return .error (.malformedConfig path)
  | none => do
    let texts ← usualPaths.mapM files.read
    return .ok (Config.ofFirst environment (texts.filterMap Except.toOption))

/-- The query that the compile command prints. Classes of the configuration, of the command line
and the class asked for can all be the target of subqueries. -/
def compileQuery (settings : CompilerSettings) (query className : String)
    (fields knownClasses : List String) : Except QueryError Query :=
  let compiler := Compiler.ofSettings
    { settings with
      defaultFields := if fields.isEmpty then settings.defaultFields else fields
      classes := settings.classes ++ knownClasses ++ [className] }
  compiler.compileFor query className

def withKind (name : String) (change : LiteralKind → List Char → List Char) (text : String) :
    Except CommandError String :=
  match LiteralKind.ofName? name with
  | none => .error (.unknownKind name)
  | some kind => .ok (String.ofList (change kind text.toList) ++ "\n")

def execute {m : Type → Type} [Monad m] (files : FileAccess m) (now : Instant)
    (config : Config) (action : Action) : m (Except CommandError String) :=
  match action with
  | .compile query className fields knownClasses pretty =>
    match compileQuery config.compiler query className fields knownClasses with
    | .error error => return .error (.query error)
    | .ok compiled =>
      let json := compiled.toJson
      return .ok ((if pretty then json.indented else json.compact) ++ "\n")
  | .escape text kind => return withKind kind LiteralKind.escape text
  | .unescape text kind => return withKind kind LiteralKind.unescape text
  | .resolveTime expression =>
    match TimeExpression.resolve expression now with
    | .error error => return .error (.query error)
    | .ok instant =>
      return .ok (toString instant.milliseconds ++ "\t" ++ instant.timestamp ++ "\n")
  | .sampleConfig none => return .ok Config.sample
  | .sampleConfig (some path) => do
    match ← files.ensureAround path with
    | .error reason => return .error (.file reason)
    | .ok () =>
      match ← files.write path Config.sample with
      | .error _ => return .error (.unwritable path)
      | .ok () => return .ok ("Config written to " ++ Text.quoted path ++ "\n")

/-- How a run ends: its exit code, what it prints, and its error. -/
structure Outcome where
  code : Nat
  output : String := ""
  error : Option String := none
deriving DecidableEq, Repr

def run {m : Type → Type} [Monad m] (files : FileAccess m) (environment : Config.Environment)
    (usualPaths : List String) (now : Instant) (arguments : List String) : m Outcome :=
  match readArguments? arguments with
  | none => return { code := 2 }
  | some .version => return { code := 0, output := programName ++ " " ++ version ++ "\n" }
  | some .help => return { code := 0, output := usage }
  | some (.run path action) => do
    match ← loadConfig files environment usualPaths path with
    | .error error => return { code := 1, error := some ("Error: " ++ error.message) }
    | .ok config =>
      match ← execute files now config action with
      | .error error => return { code := 1, error := some ("Error: " ++ error.message) }
      | .ok output => return { code := 0, output := output }

end SelectorLang.Command
