import SelectorLang.Compiler
import SelectorLang.Toml.Document

set_option autoImplicit false

namespace SelectorLang

structure CompilerSettings where
  defaultFields : List String := standardFields
  maxDepth : Nat := standardDepth
  classes : List String := []
deriving DecidableEq, Repr

structure LogSettings where
  level : String := "warn"
  format : String := "pretty"
deriving DecidableEq, Repr

structure Config where
  compiler : CompilerSettings := {}
  log : LogSettings := {}
deriving DecidableEq, Repr

namespace Compiler

def ofSettings (settings : CompilerSettings) : Compiler :=
  settings.classes.foldl (fun compiler name => compiler.register { name := name })
    { defaultFields := settings.defaultFields, maxDepth := settings.maxDepth }

end Compiler

namespace Config

open Toml (Value Entries)

def strings? : Value → Option (List String)
  | .array items => items.mapM (fun item =>
      match item with
      | .string text => some text
      | _ => none)
  | _ => none

def string? : Value → Option String
  | .string text => some text
  | _ => none

def natural? : Value → Option Nat
  | .integer (.ofNat value) => some value
  | _ => none

/-- The fields of a record: a table, or an array of its values in order. A date has none of the
fields of any record. -/
def fields? (names : List String) : Value → Option Entries
  | .table _ entries => some entries
  | .array items => some (names.zip items)
  | .tables elements => some (names.zip (elements.map (.table .opened ·)))
  | .moment => some []
  | _ => none

def fieldOr {α : Type} (entries : Entries) (name : String) (read : Value → Option α)
    (missing : α) : Option α :=
  match entries.lookup name with
  | none => some missing
  | some value => read value

def compilerSettings? (value : Value) : Option CompilerSettings := do
  let standard : CompilerSettings := {}
  let entries ← fields? ["default_fields", "max_depth", "classes"] value
  let defaultFields ← fieldOr entries "default_fields" strings? standard.defaultFields
  let maxDepth ← fieldOr entries "max_depth" natural? standard.maxDepth
  let classes ← fieldOr entries "classes" strings? standard.classes
  pure ⟨defaultFields, maxDepth, classes⟩

def logSettings? (value : Value) : Option LogSettings := do
  let standard : LogSettings := {}
  let entries ← fields? ["level", "format"] value
  let level ← fieldOr entries "level" string? standard.level
  let format ← fieldOr entries "format" string? standard.format
  pure ⟨level, format⟩

def ofText? (text : String) : Option Config := do
  let root ← Toml.parse? text.toList
  let compiler ← fieldOr root "parser" compilerSettings? {}
  let log ← fieldOr root "logging" logSettings? {}
  pure ⟨compiler, log⟩

abbrev Environment := String → Option String

/-- The names in a text that separates them by commas. Blanks around a name do not belong to it,
and what is empty is no name. -/
def namesIn (text : String) : List String :=
  (((Text.cut (· == ',') text.toList).map Text.trim).filter (fun name => !name.isEmpty)).map
    String.ofList

/-- A number of 64 bits in ASCII digits, perhaps after a plus sign. -/
def depth? (text : String) : Option Nat :=
  let digits := match text.toList with
    | '+' :: rest => rest
    | digits => digits
  (Directive.wordOf? digits).map UInt64.toNat

def override (environment : Environment) (config : Config) : Config :=
  { compiler :=
      { config.compiler with
        defaultFields :=
          ((environment "ENTITY_QUERY_DEFAULT_FIELDS").map namesIn).getD
            config.compiler.defaultFields
        maxDepth :=
          ((environment "ENTITY_QUERY_MAX_DEPTH").bind depth?).getD config.compiler.maxDepth }
    log :=
      { level := (environment "ENTITY_QUERY_LOG_LEVEL").getD config.log.level
        format := (environment "ENTITY_QUERY_LOG_FORMAT").getD config.log.format } }

def ofEnvironment (environment : Environment) : Config := override environment {}

def ofTextWith? (environment : Environment) (text : String) : Option Config :=
  (ofText? text).map (override environment)

/-- The settings of the first file that can be read, or of the environment alone. -/
def ofFirst (environment : Environment) (texts : List String) : Config :=
  (texts.findSome? (ofTextWith? environment)).getD (ofEnvironment environment)

end Config

end SelectorLang
