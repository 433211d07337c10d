import SelectorLang.Error
import SelectorLang.Json.Reader
import SelectorLang.Selector.Basic
/-!
Reading a query from its JSON form.

A record is an object, whose unknown members are left aside, or an array of its fields in their
order; fields with a default may be missing. A name out of a closed set is a string, or an object
with that name as its single key and null as its value. Brackets that are read nest no deeper than
JSON allows; `room` is the number of levels left.
-/

set_option autoImplicit false

namespace SelectorLang

namespace Json.Term

/-- A reader for what stands under so many levels. -/
abbrev Decoder (α : Type) := Nat → Term → Option α

variable {α β : Type}

def string? : Decoder String
  | _, .string value => value
  | _, _ => none

def bool? : Decoder Bool
  | _, .bool value => some value
  | _, _ => none

def word? : Decoder UInt64
  | _, .number value => value.bind Number.toWord?
  | _, _ => none

def value? : Decoder Json := toJson?

/-- The name in a member of a closed set. -/
def name? : Decoder String
  | _, .string value => value
  | _ + 1, .object [(key, .null)] => key
  | _, _ => none

def list? (item : Decoder α) : Decoder (List α)
  | room + 1, .array terms => terms.mapM (item room)
  | _, _ => none

def pair? (first : Decoder α) (second : Decoder β) : Decoder (α × β)
  | room + 1, .array [left, right] => do
    let left ← first room left
    let right ← second room right
    pure (left, right)
  | _, _ => none

/-- The members of an object whose keys are fields, if no field comes twice. -/
def knownMembers (fields : List String) : List (Option String × Term) →
    Option (List (String × Term))
  | [] => some []
  | (none, _) :: _ => none
  | (some key, term) :: rest => do
    let known ← knownMembers fields rest
    if !fields.contains key then pure known
    else if (known.lookup key).isSome then none
    else pure ((key, term) :: known)

def record? (fields : List String) : Decoder (List (String × Term))
  | _ + 1, .object members => knownMembers fields members
  | _ + 1, .array terms =>
    if fields.length < terms.length then none else some (fields.zip terms)
  | _, _ => none

def required? (fields : List (String × Term)) (key : String) (decode : Decoder α) (room : Nat) :
    Option α :=
  (fields.lookup key).bind (decode room)

/-- A field that may be missing or null. -/
def optional? (fields : List (String × Term)) (key : String) (decode : Decoder α) (room : Nat) :
    Option (Option α) :=
  match fields.lookup key with
  | none | some .null => some none
  | some term => (decode room term).map some

/-- A list that is empty where it is missing. -/
def entries? (fields : List (String × Term)) (key : String) (item : Decoder α) (room : Nat) :
    Option (List α) :=
  match fields.lookup key with
  | none => some []
  | some term => list? item room term

/-- The positive and the negated list of a clause kind. -/
def signed? (fields : List (String × Term)) (key : String) (item : Decoder α) (room : Nat) :
    Option (Signed α) := do
  let positive ← entries? fields key item room
  let negative ← entries? fields ("!" ++ key) item room
  pure ⟨positive, negative⟩

end Json.Term

open Json.Term

namespace Options

def fieldNames : List String := ["class", "limit", "offset", "sort", "reverse"]

def ofTerm? : Decoder Options
  | 0, _ => none
  | room + 1, term => do
    let fields ← record? fieldNames (room + 1) term
    let className ← required? fields "class" string? room
    let limit ← optional? fields "limit" word? room
    let offset ← optional? fields "offset" word? room
    let sort ← optional? fields "sort"
      (fun room term => (name? room term).bind SortField.ofName?) room
    let reverse ← optional? fields "reverse" bool? room
    pure ⟨className, limit, offset, sort, reverse⟩

end Options

namespace Comparison

/-- A field with a number, or a field, null and an expression. -/
def ofTerm? : Decoder Comparison
  | _ + 1, .array [.string field, .number operand] => do
    pure (.absolute (← field) (← operand))
  | _ + 1, .array [.string field, .null, .string expression] => do
    pure (.relative (← field) (← expression))
  | _, _ => none

end Comparison

namespace Clauses

def keys : List String :=
  ["guid", "tag", "defined", "truthy", "equal", "contain", "match", "imatch", "like", "ilike",
   "gt", "gte", "lt", "lte", "ref"]

def textPair? : Decoder (String × String) := pair? string? string?

def valuePair? : Decoder (String × Json) := pair? string? value?

def ofFields? (fields : List (String × Json.Term)) (room : Nat) : Option Clauses := do
  let guid ← signed? fields "guid" string? room
  let tag ← signed? fields "tag" string? room
  let defined ← signed? fields "defined" string? room
  let truthy ← signed? fields "truthy" string? room
  let equal ← signed? fields "equal" valuePair? room
  let contain ← signed? fields "contain" valuePair? room
  let regex ← signed? fields "match" textPair? room
  let regexFold ← signed? fields "imatch" textPair? room
  let like ← signed? fields "like" textPair? room
  let likeFold ← signed? fields "ilike" textPair? room
  let greater ← signed? fields "gt" Comparison.ofTerm? room
  let greaterEq ← signed? fields "gte" Comparison.ofTerm? room
  let less ← signed? fields "lt" Comparison.ofTerm? room
  let lessEq ← signed? fields "lte" Comparison.ofTerm? room
  let reference ← signed? fields "ref" textPair? room
  pure ⟨guid, tag, defined, truthy, equal, contain, regex, regexFold, like, likeFold,
    greater, greaterEq, less, lessEq, reference⟩

end Clauses

def Selector.fieldNames : List String :=
  "type" :: (Clauses.keys ++ ["qref", "selector"]).flatMap (fun key => [key, "!" ++ key])

mutual

/-- Reads a selector; `depth` bounds the nesting and is never less than `room`. -/
def Selector.ofTerm? : Nat → Decoder Selector
  | depth + 1, room + 1, term => do
    let fields ← record? Selector.fieldNames (room + 1) term
    let kind ← required? fields "type"
      (fun room term => (name? room term).bind Combinator.ofMarker?) room
    let clauses ← Clauses.ofFields? fields room
    let subqueries ← signed? fields "qref"
      (pair? string? (fun room term => Query.ofTerm? depth room term)) room
    let nested ← signed? fields "selector"
      (fun room term => Selector.ofTerm? depth room term) room
    pure ⟨kind, clauses, subqueries, nested⟩
  | _, _, _ => none
termination_by structural depth => depth

def Query.ofTerm? : Nat → Decoder Query
  | depth + 1, room + 1, .array (first :: others) => do
    let options ← Options.ofTerm? room first
    let selectors ← others.mapM (fun term => Selector.ofTerm? depth room term)
    pure ⟨options, selectors⟩
  | _, _, _ => none
termination_by structural depth => depth

end

def Query.ofText (text : String) : Except QueryError Query :=
  match (Json.Term.ofText? text.toList).bind (Query.ofTerm? Json.maxNesting Json.maxNesting) with
  | some query => .ok query
  | none => .error .malformedTransport

def Comparison.ofText (text : String) : Except QueryError Comparison :=
  match (Json.Term.ofText? text.toList).bind (Comparison.ofTerm? Json.maxNesting) with
  | some comparison => .ok comparison
  | none => .error .malformedTransport

end SelectorLang
