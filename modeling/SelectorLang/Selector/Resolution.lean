import SelectorLang.Error
import SelectorLang.Selector.Basic
import SelectorLang.Time.Expression

set_option autoImplicit false

namespace SelectorLang.Comparison

/-- The operand as a double; a time expression stands for the milliseconds since 1970 at the instant
that it names. -/
def resolve (comparison : Comparison) (now : Instant) : Except QueryError Double :=
  match comparison with
  | .absolute _ number => .ok number.toDouble
  | .relative _ expression =>
    (TimeExpression.resolve expression now).map (fun instant =>
      Double.ofInt instant.milliseconds
        (Nat.lt_of_lt_of_le instant.milliseconds_natAbs_lt (by decide)))

end SelectorLang.Comparison
