import SelectorLang.Selector.Basic
/-!
The JSON form of a query.

A query is an array of its options and its selectors. An option that is not set and a clause list
that is empty are left out; a negated list's key is its positive list's key after `!`.
-/

set_option autoImplicit false

namespace SelectorLang

namespace Options

def wordJson (value : UInt64) : Json :=
  .number (.whole value.toNat ⟨by omega, by have := value.toNat_lt; omega⟩)

def toJson (options : Options) : Json :=
  .object <|
    ("class", .string options.className) ::
      ((options.limit.map (fun value => ("limit", wordJson value))).toList ++
      (options.offset.map (fun value => ("offset", wordJson value))).toList ++
      (options.sort.map (fun value => ("sort", Json.string value.name))).toList ++
      (options.reverse.map (fun value => ("reverse", Json.bool value))).toList)

end Options

namespace Comparison

def toJson : Comparison → Json
  | .absolute field number => .array [.string field, .number number]
  | .relative field expression => .array [.string field, .null, .string expression]

end Comparison

def listMember (key : String) (items : List Json) : List (String × Json) :=
  if items.isEmpty then [] else [(key, .array items)]

def signedMembers (key : String) (positive negative : List Json) : List (String × Json) :=
  listMember key positive ++ listMember ("!" ++ key) negative

namespace Clauses

def membersOf {α : Type} (key : String) (encode : α → Json) (lists : Signed α) :
    List (String × Json) :=
  signedMembers key (lists.positive.map encode) (lists.negative.map encode)

def valuePair (entry : String × Json) : Json := .array [.string entry.1, entry.2]

def textPair (entry : String × String) : Json := .array [.string entry.1, .string entry.2]

def members (clauses : Clauses) : List (String × Json) :=
  membersOf "guid" .string clauses.guid ++
  membersOf "tag" .string clauses.tag ++
  membersOf "defined" .string clauses.defined ++
  membersOf "truthy" .string clauses.truthy ++
  membersOf "equal" valuePair clauses.equal ++
  membersOf "contain" valuePair clauses.contain ++
  membersOf "match" textPair clauses.regex ++
  membersOf "imatch" textPair clauses.regexFold ++
  membersOf "like" textPair clauses.like ++
  membersOf "ilike" textPair clauses.likeFold ++
  membersOf "gt" Comparison.toJson clauses.greater ++
  membersOf "gte" Comparison.toJson clauses.greaterEq ++
  membersOf "lt" Comparison.toJson clauses.less ++
  membersOf "lte" Comparison.toJson clauses.lessEq ++
  membersOf "ref" textPair clauses.reference

end Clauses

mutual

def Selector.toJson : Selector → Json
  | ⟨kind, clauses, ⟨subqueries, notSubqueries⟩, ⟨nested, notNested⟩⟩ =>
    .object <|
      ("type", .string kind.marker) ::
        (clauses.members ++
        signedMembers "qref" (Query.entriesToJson subqueries) (Query.entriesToJson notSubqueries) ++
        signedMembers "selector" (Selector.listToJson nested) (Selector.listToJson notNested))
termination_by structural selector => selector

def Query.toJson : Query → Json
  | ⟨options, selectors⟩ => .array (options.toJson :: Selector.listToJson selectors)
termination_by structural query => query

def Selector.listToJson : List Selector → List Json
  | [] => []
  | selector :: rest => selector.toJson :: Selector.listToJson rest
termination_by structural selectors => selectors

/-- The entries of a list of subqueries: pairs of a field and a query. -/
def Query.entriesToJson : List (String × Query) → List Json
  | [] => []
  | (field, query) :: rest => .array [.string field, query.toJson] :: Query.entriesToJson rest
termination_by structural entries => entries

end

end SelectorLang
