import SelectorLang.Number.Basic

set_option autoImplicit false

namespace SelectorLang

inductive Json where
  | null
  | bool (value : Bool)
  | number (value : Number)
  | string (value : String)
  | array (items : List Json)
  | object (members : List (String × Json))
deriving Repr, Inhabited

namespace Json

/-- Puts a member into members that are ordered by key; a member of the same key is replaced. -/
def insert (key : String) (value : Json) : List (String × Json) → List (String × Json)
  | [] => [(key, value)]
  | (other, old) :: rest =>
    if key < other then (key, value) :: (other, old) :: rest
    else if key = other then (key, value) :: rest
    else (other, old) :: insert key value rest

/-- The object of some members: ordered by key, and of equal keys the last one counts. -/
def ofMembers (members : List (String × Json)) : Json :=
  .object (members.foldl (fun done (key, value) => insert key value done) [])

def strings (values : List String) : Json := .array (values.map .string)

def member? (key : String) : Json → Option Json
  | .object members => members.lookup key
  | _ => none

def toString? : Json → Option String
  | .string value => some value
  | _ => none

def toList? : Json → Option (List Json)
  | .array items => some items
  | _ => none

def toStrings? (value : Json) : Option (List String) :=
  value.toList?.bind (fun items => items.mapM toString?)

mutual

def same : Json → Json → Bool
  | .null, .null => true
  | .bool left, .bool right => left == right
  | .number left, .number right => left == right
  | .string left, .string right => left == right
  | .array left, .array right => sameItems left right
  | .object left, .object right => sameMembers left right
  | _, _ => false
termination_by structural left => left

def sameItems : List Json → List Json → Bool
  | [], [] => true
  | left :: lefts, right :: rights => same left right && sameItems lefts rights
  | _, _ => false
termination_by structural lefts => lefts

def sameMembers : List (String × Json) → List (String × Json) → Bool
  | [], [] => true
  | (key, left) :: lefts, (other, right) :: rights =>
    key == other && same left right && sameMembers lefts rights
  | _, _ => false
termination_by structural lefts => lefts

end

mutual

theorem same_iff (left right : Json) : same left right = true ↔ left = right := by
  cases left <;> cases right <;>
    simp only [same, beq_iff_eq, Json.bool.injEq, Json.number.injEq, Json.string.injEq,
      Json.array.injEq, Json.object.injEq, reduceCtorEq, sameItems_iff, sameMembers_iff]
termination_by structural left

theorem sameItems_iff (lefts rights : List Json) :
    sameItems lefts rights = true ↔ lefts = rights := by
  cases lefts <;> cases rights <;>
    simp only [sameItems, Bool.and_eq_true, List.cons.injEq, reduceCtorEq, same_iff, sameItems_iff,
      Bool.false_eq_true]
termination_by structural lefts

theorem sameMembers_iff (lefts rights : List (String × Json)) :
    sameMembers lefts rights = true ↔ lefts = rights := by
  cases lefts with
  | nil => cases rights <;> simp only [sameMembers, reduceCtorEq, Bool.false_eq_true]
  | cons first lefts =>
    obtain ⟨key, left⟩ := first
    cases rights with
    | nil => simp only [sameMembers, reduceCtorEq, Bool.false_eq_true]
    | cons second rights =>
      obtain ⟨other, right⟩ := second
      simp only [sameMembers, Bool.and_eq_true, beq_iff_eq, same_iff, sameMembers_iff,
        List.cons.injEq, Prod.mk.injEq]
termination_by structural lefts

end

instance : DecidableEq Json := fun left right => decidable_of_iff _ (same_iff left right)

end Json

end SelectorLang
