/-!
TOML values and the tables they form.

A table remembers how it came about, since that decides what may be added to it later: a table with
a header of its own is complete but for subtables, one implied by a longer header may still get its
header, one made by dotted keys only grows by dotted keys, and an inline table never grows.
-/

set_option autoImplicit false

namespace SelectorLang.Toml

inductive TableForm where
  | opened
  | implied
  | dotted
  | inlined
deriving DecidableEq, Repr

inductive Value where
  | string (text : String)
  | integer (value : Int)
  | float
  | boolean (value : Bool)
  /-- A date, a time or both. -/
  | moment
  | array (items : List Value)
  | table (form : TableForm) (entries : List (String × Value))
  /-- Tables that share an array header, the last one being the current. -/
  | tables (elements : List (List (String × Value)))
deriving Repr, Inhabited

abbrev Entries := List (String × Value)

namespace Entries

def put (key : String) (value : Value) : Entries → Entries
  | [] => [(key, value)]
  | (other, old) :: rest =>
    if other = key then (key, value) :: rest else (other, old) :: put key value rest

def putNew? (key : String) (value : Value) (entries : Entries) : Option Entries :=
  match entries.lookup key with
  | none => some (put key value entries)
  | some _ => none

def onLast? (act : Entries → Option Entries) : List Entries → Option (List Entries)
  | [] => none
  | [last] => (act last).map ([·])
  | first :: next :: rest => (onLast? act (next :: rest)).map (first :: ·)

/-- Acts on the entries of the table at the end of a path. Tables that are missing on the way are
made; `dotted` tells whether the path stands in a dotted key or in a header. A dotted key does not
lead into a table with a header of its own, and no path leads into an inline table. The action is
told whether its table was made by dotted keys. -/
def descend? (dotted : Bool) (act : Bool → Entries → Option Entries) :
    List String → Bool → Entries → Option Entries
  | [], ownDotted, entries => act ownDotted entries
  | key :: path, _, entries =>
    match entries.lookup key with
    | none => do
      let inner ← descend? dotted act path dotted []
      pure (put key (.table (if dotted then .dotted else .implied) inner) entries)
    | some (.table form inner) =>
      if form = .inlined ∨ (dotted ∧ form = .opened) then none
      else do
        let changed ← descend? dotted act path (form == .dotted) inner
        pure (put key (.table form changed) entries)
    | some (.tables elements) => do
      let changed ← onLast? (descend? dotted act path false) elements
      pure (put key (.tables changed) entries)
    | some _ => none

/-- Enters a value under a dotted key. A key without dots may not enter a table made by dotted keys,
and a key with dots only such a table. -/
def enter? (path : List String) (key : String) (value : Value) : Entries → Option Entries :=
  descend? true
    (fun ownDotted entries =>
      if ownDotted == path.isEmpty then none else putNew? key value entries)
    path false

/-- Opens the table of a header: a new one, or one that longer headers implied. -/
def openTable? (path : List String) (key : String) : Entries → Option Entries :=
  descend? false
    (fun _ entries =>
      match entries.lookup key with
      | none => some (put key (.table .opened []) entries)
      | some (.table .implied inner) => some (put key (.table .opened inner) entries)
      | some _ => none)
    path false

def openElement? (path : List String) (key : String) : Entries → Option Entries :=
  descend? false
    (fun _ entries =>
      match entries.lookup key with
      | none => some (put key (.tables [[]]) entries)
      | some (.tables elements) => some (put key (.tables (elements ++ [[]])) entries)
      | some _ => none)
    path false

end Entries

end SelectorLang.Toml
