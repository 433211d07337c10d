import SelectorLang.Compiler
import SelectorLang.Text.Quoted

set_option autoImplicit false

namespace SelectorLang

namespace Compiler

def classNames (compiler : Compiler) : List String :=
  (compiler.classes.map EntityClass.name).mergeSort (fun first second => !(second < first))

def summary (compiler : Compiler) : String :=
  "QueryParser \x7b default_fields: " ++ Text.quotedList compiler.defaultFields ++
    ", classes: " ++ Text.quotedList compiler.classNames ++
    ", max_depth: " ++ toString compiler.maxDepth ++ ", .. \x7d"

end Compiler

namespace Session

inductive Step where
  | register (cls : EntityClass)
  | setFields (fields : List String)
  | setDepth (depth : Nat)
  | setHandler (handler : BareHandler)
  /-- Goes on with a copy of the compiler. -/
  | copy
  | look (name : String)
  | compile (text : String) (cls : EntityClass)
  | compileFor (text : String) (name : String)

inductive Reply where
  | settings (summary : String)
  | cls (found : Option EntityClass)
  | compiled (result : Except QueryError Query)

def next (compiler : Compiler) : Step → Compiler
  | .register cls => compiler.register cls
  | .setFields fields => { compiler with defaultFields := fields }
  | .setDepth depth => { compiler with maxDepth := depth }
  | .setHandler handler => { compiler with bareHandler := handler }
  | .copy | .look _ | .compile _ _ | .compileFor _ _ => compiler

def reply (compiler : Compiler) (step : Step) : Reply :=
  match step with
  | .look name => .cls (compiler.class? name)
  | .compile text cls => .compiled (.ok (compiler.compile text cls))
  | .compileFor text name => .compiled (compiler.compileFor text name)
  | .register _ | .setFields _ | .setDepth _ | .setHandler _ | .copy =>
    .settings (next compiler step).summary

def runFrom (compiler : Compiler) : List Step → List Reply
  | [] => []
  | step :: rest => reply compiler step :: runFrom (next compiler step) rest

def run (steps : List Step) : List Reply := runFrom {} steps

end Session

end SelectorLang
