import SelectorLang.Json.Basic
import SelectorLang.Number.Scaled
import SelectorLang.Text.Reader
import SelectorLang.Text.Word
/-!
Reading JSON.

A text is first read as a term, which keeps to the grammar but may hold strings with unpaired
surrogates and numbers that no double can hold: such parts matter only where their value is asked
for. A term becomes a value if all of it can be had and brackets nest no deeper than allowed.
-/

set_option autoImplicit false

namespace SelectorLang.Json

def maxNesting : Nat := 127

inductive Term where
  | null
  | bool (value : Bool)
  /-- A numeral; one beyond the doubles has no value. -/
  | number (value : Option Number)
  /-- A string; one with an unpaired surrogate has no value. -/
  | string (value : Option String)
  | array (items : List Term)
  /-- An object's members in their order, also those that share a key. -/
  | object (members : List (Option String × Term))
deriving Repr, Inhabited

def isSpace (c : Char) : Bool := c == ' ' || c == '\t' || c == '\n' || c == '\r'

def skipSpace (text : List Char) : List Char := text.dropWhile isSpace

/-- What stands for one or half a character in a string. -/
inductive StringUnit where
  | char (c : Char)
  | code (value : Nat)
deriving Repr

def hexValue? (c : Char) : Option Nat :=
  if isHexDigit c then
    some (if c.isDigit then c.toNat - 48 else if c ≤ 'F' then c.toNat - 55 else c.toNat - 87)
  else none

def hexCode? (a b c d : Char) : Option Nat := do
  let a ← hexValue? a
  let b ← hexValue? b
  let c ← hexValue? c
  let d ← hexValue? d
  pure (((a * 16 + b) * 16 + c) * 16 + d)

def escapeValue? (c : Char) : Option Char :=
  if c == '"' || c == '\\' || c == '/' then some c
  else if c == 'b' then some '\x08'
  else if c == 'f' then some '\x0c'
  else if c == 'n' then some '\n'
  else if c == 'r' then some '\r'
  else if c == 't' then some '\t'
  else none

def unitsOf : List Char → Option (List StringUnit × List Char)
  | [] => none
  | '"' :: rest => some ([], rest)
  | '\\' :: 'u' :: a :: b :: c :: d :: rest => do
    let value ← hexCode? a b c d
    let (units, after) ← unitsOf rest
    pure (.code value :: units, after)
  | '\\' :: c :: rest => do
    let value ← escapeValue? c
    let (units, after) ← unitsOf rest
    pure (.char value :: units, after)
  | c :: rest =>
    if c == '\\' || c.toNat < 0x20 then none
    else do
      let (units, after) ← unitsOf rest
      pure (.char c :: units, after)

/-- The characters of a string; two codes that pair as surrogates make one character, and a
surrogate without its partner makes none. -/
def charsOf? : List StringUnit → Option (List Char)
  | [] => some []
  | .char c :: rest => (charsOf? rest).map (c :: ·)
  | [.code high] =>
    if 0xD800 ≤ high ∧ high < 0xE000 then none else some [Char.ofNat high]
  | .code high :: next :: rest =>
    if 0xD800 ≤ high ∧ high < 0xDC00 then
      match next with
      | .code low =>
        if 0xDC00 ≤ low ∧ low < 0xE000 then
          (charsOf? rest).map (Char.ofNat (0x10000 + (high - 0xD800) * 0x400 + (low - 0xDC00)) :: ·)
        else none
      | .char _ => none
    else if 0xDC00 ≤ high ∧ high < 0xE000 then none
    else (charsOf? (next :: rest)).map (Char.ofNat high :: ·)

def stringAt (text : List Char) : Option (Option String × List Char) :=
  (unitsOf text).map (fun (units, after) => ((charsOf? units).map String.ofList, after))

/-- Reads a numeral of the JSON grammar: no zeros in front, digits on both sides of the point. -/
def numeral : Reader Number.Numeral := do
  let negative ← Reader.flag '-'
  let wholeDigits ← Reader.run1 Char.isDigit
  if wholeDigits.length ≠ 1 ∧ wholeDigits.head? = some '0' then failure
  let pointed ← Reader.flag '.'
  let fraction ← if pointed then some <$> Reader.run1 Char.isDigit else pure none
  let exponent ← (do
      let _ ← Reader.satisfy (fun c => c == 'e' || c == 'E')
      let minus ← Reader.flag '-'
      if minus then pure () else let _ ← Reader.flag '+'
      let digits ← Reader.run1 Char.isDigit
      pure (some (minus, digits)))
    <|> (do
      let following ← get
      match following with
      | c :: _ => if c == 'e' || c == 'E' then failure else pure none
      | [] => pure none)
  pure ⟨negative, wholeDigits, fraction, exponent⟩

/-- The number of a numeral. Integers that fit 64 bits stay exact, save `-0`, which is a double; all
others are read in double arithmetic. -/
def numberOf? (numeral : Number.Numeral) : Option Number :=
  let rounded := numeral.toScaled?.map Number.double
  match numeral.toInt? with
  | none => rounded
  | some value =>
    if value = 0 ∧ numeral.negative then rounded
    else match Number.ofInt? value with
      | some whole => some whole
      | none => rounded

mutual

/-- Reads a term after blanks; `fuel` bounds the calls that may follow. -/
def termAt : Nat → List Char → Option (Term × List Char)
  | 0, _ => none
  | fuel + 1, text =>
    match skipSpace text with
    | '[' :: rest =>
      match skipSpace rest with
      | ']' :: after => some (.array [], after)
      | inside => (itemsAt fuel inside).map (fun (items, after) => (.array items, after))
    | '\x7b' :: rest =>
      match skipSpace rest with
      | '\x7d' :: after => some (.object [], after)
      | inside => (membersAt fuel inside).map (fun (members, after) => (.object members, after))
    | '"' :: rest => (stringAt rest).map (fun (value, after) => (.string value, after))
    | 'n' :: 'u' :: 'l' :: 'l' :: rest => some (.null, rest)
    | 't' :: 'r' :: 'u' :: 'e' :: rest => some (.bool true, rest)
    | 'f' :: 'a' :: 'l' :: 's' :: 'e' :: rest => some (.bool false, rest)
    | other => (numeral other).map (fun (value, after) => (.number (numberOf? value), after))

def itemsAt : Nat → List Char → Option (List Term × List Char)
  | 0, _ => none
  | fuel + 1, text =>
    match termAt fuel text with
    | none => none
    | some (item, rest) =>
      match skipSpace rest with
      | ',' :: more => (itemsAt fuel more).map (fun (items, after) => (item :: items, after))
      | ']' :: after => some ([item], after)
      | _ => none

def membersAt : Nat → List Char → Option (List (Option String × Term) × List Char)
  | 0, _ => none
  | fuel + 1, text =>
    match skipSpace text with
    | '"' :: rest =>
      match stringAt rest with
      | none => none
      | some (key, afterKey) =>
        match skipSpace afterKey with
        | ':' :: valueText =>
          match termAt fuel valueText with
          | none => none
          | some (value, afterValue) =>
            match skipSpace afterValue with
            | ',' :: more =>
              (membersAt fuel more).map (fun (members, after) => ((key, value) :: members, after))
            | '\x7d' :: after => some ([(key, value)], after)
            | _ => none
        | _ => none
    | _ => none

end

namespace Term

/-- Reads a text that holds one term and nothing else but blanks. Two calls at most are made for
each character. -/
def ofText? (text : List Char) : Option Term :=
  match termAt (2 * text.length + 1) text with
  | some (term, rest) => if (skipSpace rest).isEmpty then some term else none
  | none => none

mutual

/-- The value of a term whose brackets nest no deeper than `room`. -/
def toJson? (room : Nat) : Term → Option Json
  | .null => some .null
  | .bool value => some (.bool value)
  | .number value => value.map .number
  | .string value => value.map .string
  | .array items =>
    match room with
    | 0 => none
    | inner + 1 => (itemsToJson? inner items).map .array
  | .object members =>
    match room with
    | 0 => none
    | inner + 1 => (membersToJson? inner members).map ofMembers
termination_by structural term => term

def itemsToJson? (room : Nat) : List Term → Option (List Json)
  | [] => some []
  | item :: rest => do
    let value ← toJson? room item
    let values ← itemsToJson? room rest
    pure (value :: values)
termination_by structural items => items

def membersToJson? (room : Nat) : List (Option String × Term) → Option (List (String × Json))
  | [] => some []
  | (key, member) :: rest => do
    let key ← key
    let value ← toJson? room member
    let values ← membersToJson? room rest
    pure ((key, value) :: values)
termination_by structural members => members

end

end Term

def ofText? (text : List Char) : Option Json :=
  (Term.ofText? text).bind (Term.toJson? maxNesting)

end SelectorLang.Json
