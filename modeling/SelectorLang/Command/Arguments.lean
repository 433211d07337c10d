/-!
Command-line arguments.

Options may stand before or after the words of a command; a short option's value may follow it in
the same argument, a long option's after an equals sign. After `--` every argument is a word. An
option that is not marked as repeatable may be given once.
-/

set_option autoImplicit false

namespace SelectorLang.Command

structure OptionSpec where
  long : String
  short : Option Char := none
  takesValue : Bool := true
  repeatable : Bool := false
  nonempty : Bool := false
deriving DecidableEq, Repr

structure Spec where
  options : List OptionSpec
  words : Nat
deriving Repr

structure Given where
  options : List (String × String) := []
  words : List String := []
deriving DecidableEq, Repr

inductive Reading where
  | refused
  /-- An option of this name asks for information instead of a run. -/
  | asked (option : String)
  /-- The first word of a command with subcommands, and the arguments after it. -/
  | subcommand (given : Given) (word : String) (rest : List String)
  | complete (given : Given)
deriving Repr

namespace Given

def value? (given : Given) (option : String) : Option String := given.options.lookup option

def values (given : Given) (option : String) : List String :=
  (given.options.filter (fun entry => entry.1 == option)).map Prod.snd

def has (given : Given) (option : String) : Bool := (given.value? option).isSome

end Given

namespace Spec

def informative : List String := ["help", "version"]

def isOption (argument : String) : Bool :=
  match argument.toList with
  | '-' :: _ :: _ => true
  | _ => false

def byLong? (spec : Spec) (name : String) : Option OptionSpec :=
  spec.options.find? (fun option => option.long == name)

def byShort? (spec : Spec) (mark : Char) : Option OptionSpec :=
  spec.options.find? (fun option => option.short == some mark)

/-- Records an option, unless it may not be given again or its value may not be empty. -/
def record? (given : Given) (option : OptionSpec) (value : String) : Option Given :=
  if (!option.repeatable && given.has option.long) || (option.nonempty && value.isEmpty) then none
  else some { given with options := given.options ++ [(option.long, value)] }

/-- What the characters of a short argument say. -/
inductive Cluster where
  | refused
  | asked (option : String)
  | flags (given : Given)
  /-- The last option takes its value from the next argument. -/
  | pending (given : Given) (option : OptionSpec)

def cluster (spec : Spec) (given : Given) : List Char → Cluster
  | [] => .flags given
  | mark :: rest =>
    match spec.byShort? mark with
    | none => .refused
    | some option =>
      if option.takesValue then
        match rest with
        | [] => .pending given option
        | first :: others =>
          let value := if first == '=' then others else first :: others
          match record? given option (String.ofList value) with
          | none => .refused
          | some given => .flags given
      else if informative.contains option.long then .asked option.long
      else
        match record? given option "" with
        | none => .refused
        | some given => cluster spec given rest

def cutLong (argument : List Char) : String × Option String :=
  let name := argument.takeWhile (· != '=')
  match argument.dropWhile (· != '=') with
  | [] => (String.ofList name, none)
  | _ :: value => (String.ofList name, some (String.ofList value))

/-- Reads arguments; a spec without words takes its first word for a subcommand. `pending` is an
option that waits for its value. -/
def readFrom (spec : Spec) : Option OptionSpec → Given → List String → Reading
  | some _, _, [] => .refused
  | none, given, [] => .complete given
  | some option, given, argument :: rest =>
    if isOption argument then .refused
    else match record? given option argument with
      | none => .refused
      | some given => readFrom spec none given rest
  | none, given, argument :: rest =>
    match argument.toList with
    | ['-', '-'] =>
      if given.words.length + rest.length ≤ spec.words then
        .complete { given with words := given.words ++ rest }
      else .refused
    | '-' :: '-' :: text =>
      let (name, value) := cutLong text
      match spec.byLong? name, value with
      | none, _ => .refused
      | some option, none =>
        if option.takesValue then readFrom spec (some option) given rest
        else if informative.contains option.long then .asked option.long
        else match record? given option "" with
          | none => .refused
          | some given => readFrom spec none given rest
      | some option, some value =>
        if !option.takesValue then .refused
        else match record? given option value with
          | none => .refused
          | some given => readFrom spec none given rest
    | '-' :: mark :: text =>
      match spec.cluster given (mark :: text) with
      | .refused => .refused
      | .asked option => .asked option
      | .flags given => readFrom spec none given rest
      | .pending given option => readFrom spec (some option) given rest
    | _ =>
      if spec.words = 0 then .subcommand given argument rest
      else if given.words.length < spec.words then
        readFrom spec none { given with words := given.words ++ [argument] } rest
      else .refused

def read (spec : Spec) (arguments : List String) : Reading := spec.readFrom none {} arguments

end Spec

end SelectorLang.Command
