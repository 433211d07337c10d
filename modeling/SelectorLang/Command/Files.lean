import SelectorLang.Text.Blank
/-!
Files as commands see them.

Commands use files through a record of operations, so that they can be run on the files of the
system and on a tree of files that is a value. A path is followed name by name: only a directory can
be left, so a file with names after it leads nowhere, even where the names lead back.
-/

set_option autoImplicit false

namespace SelectorLang

inductive FileError where
  | notFound
  | alreadyExists
  | notADirectory
  | isADirectory
  | nameTooLong
  | other (message : String)
deriving DecidableEq, Repr

def FileError.message : FileError → String
  | .notFound => "No such file or directory (os error 2)"
  | .alreadyExists => "File exists (os error 17)"
  | .notADirectory => "Not a directory (os error 20)"
  | .isADirectory => "Is a directory (os error 21)"
  | .nameTooLong => "File name too long (os error 36)"
  | .other message => message

structure Route where
  /-- Whether the path starts at the root, and not at the current directory. -/
  fromRoot : Bool
  names : List String
deriving DecidableEq, Repr

namespace Route

def maxName : Nat := 255

def maxPath : Nat := 4095

/-- The route that a path spells. A slash at the end asks for a directory, as a dot after it
does. -/
def ofPath (path : String) : Route :=
  let parts := Text.cut (· == '/') path.toList
  let names := (parts.filter (fun part => !part.isEmpty)).map String.ofList
  let closed := parts.getLast? == some [] && !names.isEmpty
  ⟨path.toList.head? == some '/', if closed then names ++ ["."] else names⟩

def toPath (route : Route) : String :=
  (if route.fromRoot then "/" else "") ++ "/".intercalate route.names

/-- The names along the way to the directory around a path, apart from dots. -/
def outerNames (route : Route) : List String := (route.names.filter (· != ".")).dropLast

end Route

structure FileAccess (m : Type → Type) where
  read : String → m (Except FileError String)
  write : String → String → m (Except FileError Unit)
  makeDirectory : String → m (Except FileError Unit)
  isDirectory : String → m Bool

namespace FileAccess

variable {m : Type → Type} [Monad m]

def ensureDirectory (files : FileAccess m) (path : String) : m (Except FileError Unit) := do
  match ← files.makeDirectory path with
  | .error .alreadyExists =>
    if ← files.isDirectory path then return .ok () else return .error .alreadyExists
  | result => return result

/-- Makes the directories along names that are given backwards. The outer ones are made only if the
inner one cannot be made without them. -/
def ensureAll (files : FileAccess m) (fromRoot : Bool) : List String → m (Except FileError Unit)
  | [] => return .ok ()
  | name :: outer => do
    let path := (Route.mk fromRoot (name :: outer).reverse).toPath
    match ← files.ensureDirectory path with
    | .error .notFound =>
      match ← ensureAll files fromRoot outer with
      | .error error => return .error error
      | .ok () => files.ensureDirectory path
    | result => return result

def ensureAround (files : FileAccess m) (path : String) : m (Except FileError Unit) :=
  let route := Route.ofPath path
  files.ensureAll route.fromRoot route.outerNames.reverse

end FileAccess

/-- The names that lead to a node, none of them a dot. -/
abbrev Place := List String

inductive Node where
  | file (content : String)
  | directory (entries : List (String × Node))
deriving Repr, Inhabited

namespace Node

def isDirectory : Node → Bool
  | .directory _ => true
  | .file _ => false

def entry? (node : Node) (name : String) : Option Node :=
  match node with
  | .directory entries => entries.lookup name
  | .file _ => none

/-- A directory with an entry set; a file stays as it is. -/
def setEntry (node : Node) (name : String) (entry : Node) : Node :=
  match node with
  | .directory entries => .directory ((name, entry) :: entries.filter (fun old => old.1 != name))
  | .file content => .file content

/-- Puts a node at a place, with directories on the way to it where there are none. -/
def put (added : Node) : Place → Node → Node
  | [], _ => added
  | name :: rest, node =>
    node.setEntry name (put added rest ((node.entry? name).getD (.directory [])))

end Node

/-- A node that a path has led to, and the directories around it from the inside out, each with the
name that was followed there. -/
structure Visit where
  node : Node
  around : List (String × Node) := []

namespace Visit

def place (visit : Visit) : Place := (visit.around.map Prod.fst).reverse

/-- Follows one name. The root stands around itself. -/
def step (visit : Visit) (name : String) : Except FileError Visit :=
  match visit.node with
  | .file _ => .error .notADirectory
  | .directory entries =>
    if name = "." then .ok visit
    else if name = ".." then
      match visit.around with
      | [] => .ok visit
      | (_, outer) :: rest => .ok ⟨outer, rest⟩
    else if Route.maxName < Text.byteLength name.toList then .error .nameTooLong
    else match entries.lookup name with
      | none => .error .notFound
      | some node => .ok ⟨node, (name, visit.node) :: visit.around⟩

def follow (visit : Visit) (names : List String) : Except FileError Visit := names.foldlM step visit

end Visit

structure FileTree where
  root : Node := .directory []
  /-- The names along the way to where paths start that do not start at the root. -/
  current : List String := []

namespace FileTree

def put (tree : FileTree) (place : Place) (node : Node) : FileTree :=
  { tree with root := node.put place tree.root }

def follow (tree : FileTree) (fromRoot : Bool) (names : List String) : Except FileError Visit :=
  Visit.follow ⟨tree.root, []⟩ (if fromRoot then names else tree.current ++ names)

def find (tree : FileTree) (path : String) : Except FileError Node :=
  if Route.maxPath < Text.byteLength path.toList then .error .nameTooLong
  else
    let route := Route.ofPath path
    (tree.follow route.fromRoot route.names).map Visit.node

/-- The place of a path and what stands there, if anything; the directory around it has to be
there. -/
def target (tree : FileTree) (path : String) : Except FileError (Place × Option Node) :=
  if Route.maxPath < Text.byteLength path.toList then .error .nameTooLong
  else
    let route := Route.ofPath path
    match tree.follow route.fromRoot route.names.dropLast, route.names.getLast? with
    | .error error, _ => .error error
    | .ok outer, none => .ok (outer.place, some outer.node)
    | .ok outer, some name =>
      match outer.step name with
      | .ok visit => .ok (visit.place, some visit.node)
      | .error .notFound => .ok (outer.place ++ [name], none)
      | .error error => .error error

def readAt (tree : FileTree) (path : String) : Except FileError String :=
  match tree.find path with
  | .error error => .error error
  | .ok (.file content) => .ok content
  | .ok (.directory _) => .error .isADirectory

def writeAt (tree : FileTree) (path content : String) : Except FileError FileTree :=
  match tree.target path with
  | .error error => .error error
  | .ok (_, some (.directory _)) => .error .isADirectory
  | .ok (place, _) => .ok (tree.put place (.file content))

def makeDirectoryAt (tree : FileTree) (path : String) : Except FileError FileTree :=
  match tree.target path with
  | .error error => .error error
  | .ok (_, some _) => .error .alreadyExists
  | .ok (place, none) => .ok (tree.put place (.directory []))

def isDirectoryAt (tree : FileTree) (path : String) : Bool :=
  match tree.find path with
  | .ok node => node.isDirectory
  | .error _ => false

def commit : Except FileError FileTree → StateM FileTree (Except FileError Unit)
  | .ok tree => do set tree; return .ok ()
  | .error error => return .error error

def access : FileAccess (StateM FileTree) where
  read path := do return (← get).readAt path
  write path content := do commit ((← get).writeAt path content)
  makeDirectory path := do commit ((← get).makeDirectoryAt path)
  isDirectory path := do return (← get).isDirectoryAt path

end FileTree

end SelectorLang
