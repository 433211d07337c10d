set_option autoImplicit false

namespace SelectorLang

inductive Combinator where
  /-- Every clause matches. -/
  | allOf
  /-- At least one clause matches. -/
  | anyOf
  /-- Every clause fails to match. -/
  | noneOf
  /-- At least one clause fails to match. -/
  | notAllOf
deriving DecidableEq, Repr

namespace Combinator

def negates : Combinator → Bool
  | .allOf | .anyOf => false
  | .noneOf | .notAllOf => true

def marker : Combinator → String
  | .allOf => "&"
  | .anyOf => "|"
  | .noneOf => "!&"
  | .notAllOf => "!|"

def ofMarker? (text : String) : Option Combinator :=
  if text = "&" then some .allOf
  else if text = "|" then some .anyOf
  else if text = "!&" then some .noneOf
  else if text = "!|" then some .notAllOf
  else none

/-- Reads a group marker: a canonical one, or `!` alone for "every clause fails". -/
def ofGroupMarker? (text : String) : Option Combinator :=
  if text = "!" then some .noneOf else ofMarker? text

/-- Takes the longest marker from the front of a group; without one all clauses have to match. -/
def takeMarker : List Char → Combinator × List Char
  | '!' :: '&' :: rest => (.noneOf, rest)
  | '!' :: '|' :: rest => (.notAllOf, rest)
  | '!' :: rest => (.noneOf, rest)
  | '&' :: rest => (.allOf, rest)
  | '|' :: rest => (.anyOf, rest)
  | text => (.allOf, text)

end Combinator

end SelectorLang
