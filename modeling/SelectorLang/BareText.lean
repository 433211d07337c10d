import SelectorLang.Selector.Basic
import SelectorLang.Text.Blank

set_option autoImplicit false

namespace SelectorLang

abbrev BareHandler := String → EntityClass → List String → Option Selector

namespace BareText

/-- The words of a text joined by single spaces, if there are any. -/
def ofRest? (rest : List Char) : Option String :=
  match Text.words rest with
  | [] => none
  | words => some (String.ofList (Text.unwords words))

/-- The LIKE pattern for a text: the text itself if it holds a wildcard, else anything around it. -/
def pattern (text : String) : String :=
  if text.toList.any (fun c => c == '%' || c == '_') then text
  else String.ofList ('%' :: (text.toList ++ ['%']))

/-- Looks the text up in every field, without regard to letter case. -/
def search : BareHandler := fun text _ fields =>
  if fields.isEmpty then none
  else some
    { kind := .anyOf
      clauses := { likeFold := ⟨fields.map (fun field => (field, pattern text)), []⟩ } }

def ignore : BareHandler := fun _ _ _ => none

def blankNode : BareHandler := fun _ _ _ => some { kind := .anyOf }

/-- Records what it is given: the text as a tag, the class as a forbidden tag and the fields as
defined ones. -/
def record : BareHandler := fun text cls fields =>
  some
    { kind := .allOf
      clauses := { tag := ⟨[text], [cls.name]⟩, defined := ⟨fields, []⟩ } }

end BareText

end SelectorLang
