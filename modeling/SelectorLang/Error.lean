set_option autoImplicit false

namespace SelectorLang

inductive QueryError where
  | unknownClass (name : String)
  | invalidTime (expression : String)
  | malformedTransport
deriving DecidableEq, Repr

def QueryError.message : QueryError → String
  | .unknownClass name => "Unknown entity class: " ++ name
  | .invalidTime expression => "Invalid relative time: " ++ expression
  | .malformedTransport => "Serialization error"

end SelectorLang
