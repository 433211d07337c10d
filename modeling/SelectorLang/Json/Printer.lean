import SelectorLang.Json.Basic
/-!
JSON text.

The compact form has no blanks outside strings. The indented form puts every item and member on a
line of its own, two spaces deeper than what it belongs to.
-/

set_option autoImplicit false

namespace SelectorLang.Json

def hexDigit (n : Nat) : Char := Nat.digitChar n

/-- A character inside a JSON string. Quotes, backslashes and control characters are escaped. -/
def escapedChar (c : Char) : List Char :=
  if c == '"' then ['\\', '"']
  else if c == '\\' then ['\\', '\\']
  else if c == '\x08' then ['\\', 'b']
  else if c == '\t' then ['\\', 't']
  else if c == '\n' then ['\\', 'n']
  else if c == '\x0c' then ['\\', 'f']
  else if c == '\r' then ['\\', 'r']
  else if c.toNat < 0x20 then
    ['\\', 'u', '0', '0', hexDigit (c.toNat / 16), hexDigit (c.toNat % 16)]
  else [c]

def stringText (value : String) : List Char :=
  '"' :: (value.toList.flatMap escapedChar ++ ['"'])

mutual

def text : Json → List Char
  | .null => ['n', 'u', 'l', 'l']
  | .bool true => ['t', 'r', 'u', 'e']
  | .bool false => ['f', 'a', 'l', 's', 'e']
  | .number value => value.text
  | .string value => stringText value
  | .array items => '[' :: (itemsText items ++ [']'])
  | .object members => '\x7b' :: (membersText members ++ ['\x7d'])
termination_by structural value => value

def itemsText : List Json → List Char
  | [] => []
  | [item] => text item
  | item :: next :: rest => text item ++ ',' :: itemsText (next :: rest)
termination_by structural items => items

def membersText : List (String × Json) → List Char
  | [] => []
  | [(key, value)] => stringText key ++ ':' :: text value
  | (key, value) :: next :: rest =>
    stringText key ++ ':' :: (text value ++ ',' :: membersText (next :: rest))
termination_by structural members => members

end

def lineBreak (depth : Nat) : List Char := '\n' :: List.replicate (2 * depth) ' '

mutual

def indentedAt (depth : Nat) : Json → List Char
  | .array items =>
    if items.isEmpty then ['[', ']']
    else '[' :: (indentedItems (depth + 1) items ++ lineBreak depth ++ [']'])
  | .object members =>
    if members.isEmpty then ['\x7b', '\x7d']
    else '\x7b' :: (indentedMembers (depth + 1) members ++ lineBreak depth ++ ['\x7d'])
  | value => text value
termination_by structural value => value

def indentedItems (depth : Nat) : List Json → List Char
  | [] => []
  | [item] => lineBreak depth ++ indentedAt depth item
  | item :: next :: rest =>
    lineBreak depth ++ indentedAt depth item ++ ',' :: indentedItems depth (next :: rest)
termination_by structural items => items

def indentedMembers (depth : Nat) : List (String × Json) → List Char
  | [] => []
  | [(key, value)] => lineBreak depth ++ stringText key ++ ':' :: ' ' :: indentedAt depth value
  | (key, value) :: next :: rest =>
    lineBreak depth ++ stringText key ++ ':' :: ' ' ::
      (indentedAt depth value ++ ',' :: indentedMembers depth (next :: rest))
termination_by structural members => members

end

def compact (value : Json) : String := String.ofList (text value)

def indented (value : Json) : String := String.ofList (indentedAt 0 value)

end SelectorLang.Json
