/-!
Letter case of ASCII keywords.

Keywords are compared in lower case. Besides the ASCII capitals only the Kelvin sign has an ASCII
lower case, so folding these characters decides every comparison with an ASCII keyword.
-/

set_option autoImplicit false

namespace SelectorLang.Text

/-- The lower case of a capital that has one in ASCII; any other character stays. -/
def foldChar (c : Char) : Char :=
  if 'A' ≤ c && c ≤ 'Z' then Char.ofNat (c.toNat + 32)
  else if c == '\u212A' then 'k'
  else c

def fold (text : List Char) : List Char := text.map foldChar

end SelectorLang.Text
