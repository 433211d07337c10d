import SelectorLang.Toml.Scalar

set_option autoImplicit false

namespace SelectorLang.Toml

open Reader

/-- How deep the brackets of a value may nest, and how many parts a key may have. -/
def maxNesting : Nat := 79

def simpleKey : Reader String := do
  let text ← basicString <|> literalString
    <|> run1 (fun c => c.isAlphanum || c == '_' || c == '-')
  pure (String.ofList text)

/-- Reads a key: its parts before the last and the last one. -/
def key : Reader (List String × String) := do
  spaces
  let first ← simpleKey
  spaces
  let others ← many (do
    exactly ['.']
    spaces
    let next ← simpleKey
    spaces
    pure next)
  let parts := first :: others
  if maxNesting < parts.length then failure
  else pure (parts.dropLast, others.getLastD first)

/-- Reads blanks, line breaks and comments between the items of an array. -/
def filler : Reader Unit := do
  let _ ← many ((do let _ ← satisfy isSpace) <|> lineBreak <|> (do comment; lineBreak))

/-- Reads the items of an array and its closing bracket. A comma may follow the last item. -/
def items (item : Reader Value) : Nat → Reader (List Value)
  | 0 => failure
  | fuel + 1 => do
    let closed ← flag ']'
    if closed then pure []
    else
      let first ← item
      filler
      let more ← flag ','
      if more then
        filler
        let others ← items item fuel
        pure (first :: others)
      else
        exactly [']']
        pure [first]

def array (item : Reader Value) : Reader Value := do
  exactly ['[']
  filler
  let text ← get
  let values ← items item (text.length + 1)
  pure (.array values)

def inlineEntries (item : Reader Value) : Nat → Entries → Reader Entries
  | 0, _ => failure
  | fuel + 1, entries => do
    let (path, last) ← key
    exactly ['=']
    spaces
    let value ← item
    spaces
    let entries ← lift (entries.enter? path last value)
    let more ← flag ','
    if more then inlineEntries item fuel entries
    else
      exactly ['\x7d']
      pure entries

def inlineTable (item : Reader Value) : Reader Value := do
  exactly ['\x7b']
  spaces
  let empty ← flag '\x7d'
  if empty then pure (.table .inlined [])
  else
    let text ← get
    let entries ← inlineEntries item (text.length + 1) []
    pure (.table .inlined entries)

def value : Nat → Reader Value
  | 0 => scalar
  | room + 1 => scalar <|> array (value room) <|> inlineTable (value room)

inductive Statement where
  | blank
  | header (path : List String) (key : String)
  | elementHeader (path : List String) (key : String)
  | entry (path : List String) (key : String) (value : Value)
deriving Repr

def statement : Reader Statement :=
  (do comment; lineBreak <|> atEnd; pure .blank)
    <|> (do lineBreak; pure .blank)
    <|> (do
      exactly ['[', '[']
      let (path, last) ← key
      exactly [']', ']']
      lineEnd
      pure (.elementHeader path last))
    <|> (do
      exactly ['[']
      let (path, last) ← key
      exactly [']']
      lineEnd
      pure (.header path last))
    <|> (do
      let (path, last) ← key
      exactly ['=']
      spaces
      let found ← value maxNesting
      lineEnd
      pure (.entry path last found))

/-- A document as far as it is read: its root table and the path of the table that entries are
added to. -/
structure Document where
  root : Entries := []
  current : List String := []
deriving Repr

namespace Document

def add? (document : Document) : Statement → Option Document
  | .blank => some document
  | .header path key => do
    let root ← document.root.openTable? path key
    pure ⟨root, path ++ [key]⟩
  | .elementHeader path key => do
    let root ← document.root.openElement? path key
    pure ⟨root, path ++ [key]⟩
  | .entry path key value => do
    let root ← document.root.descend? false
      (fun _ entries => entries.enter? path key value) document.current false
    pure { document with root := root }

def readFrom? : Nat → Document → List Char → Option Document
  | 0, _, _ => none
  | fuel + 1, document, text =>
    match text.dropWhile isSpace with
    | [] => some document
    | line => do
      let (found, rest) ← statement line
      let next ← document.add? found
      readFrom? fuel next rest

end Document

/-- The root table of a document. A byte order mark may stand in front. -/
def parse? (text : List Char) : Option Entries :=
  let content := match text with
    | '\uFEFF' :: rest => rest
    | _ => text
  (Document.readFrom? (content.length + 1) {} content).map Document.root

end SelectorLang.Toml
