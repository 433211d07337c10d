set_option autoImplicit false

namespace SelectorLang

/-- The characters from `start` up to, but not including, `stop`. -/
structure Span where
  start : Nat
  stop : Nat
deriving DecidableEq, Repr

namespace Span

def slice (span : Span) (text : List Char) : List Char :=
  (text.drop span.start).take (span.stop - span.start)

/-- The text from offset `from` on, with each span replaced by one space. -/
def blankOutFrom (offset : Nat) : List Span → List Char → List Char
  | [], text => text
  | span :: spans, text =>
    text.take (span.start - offset) ++
      ' ' :: blankOutFrom span.stop spans (text.drop (span.stop - offset))

/-- The text with each span replaced by one space; spans are given in order and do not overlap. -/
def blankOut (spans : List Span) (text : List Char) : List Char := blankOutFrom 0 spans text

/-- Whether an offset lies in the span and not at its start. -/
def strictlyInside (span : Span) (offset : Nat) : Bool :=
  span.start < offset && offset < span.stop

end Span

end SelectorLang
