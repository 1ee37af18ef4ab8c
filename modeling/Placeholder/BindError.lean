import Placeholder.Token.Basic
import Placeholder.Text.Quoted

/-! Errors of binding: what is wrong with a parameter, and where it stands. -/
namespace Placeholder

inductive BindError.Cause
  /-- No binding has the name. -/
  | unboundName
  /-- The index is zero, or no index at all. -/
  | invalidExplicitIndex
  /-- The index is greater than the number of positional bindings. -/
  | positionalOutOfRange (available : Nat)
  /-- No positional binding is left. -/
  | positionalExhausted
  /-- References by index have to be resolved before lists are expanded. -/
  | explicitNotAllowed
  /-- References by name have to be resolved before lists are expanded. -/
  | namedNotAllowed
deriving DecidableEq, Repr

/-- A parameter that cannot be bound, as it is written and where. -/
structure BindError where
  cause : BindError.Cause
  text : String
  span : Span
deriving DecidableEq, Repr

namespace BindError

def ofToken (cause : Cause) (t : Token) : BindError :=
  ⟨cause, t.text, t.span⟩

def message (e : BindError) : String :=
  let parameter := Text.quote e.text ++ " at " ++ e.span.render
  match e.cause with
  | .unboundName => "named parameter " ++ parameter ++ " does not have a corresponding binding"
  | .invalidExplicitIndex =>
    "invalid explicit positional parameter " ++ parameter ++ ": index is one-based"
  | .positionalOutOfRange available =>
    "explicit positional parameter " ++ parameter ++
      " does not have a corresponding positional binding (" ++ toString available ++ " supplied)"
  | .positionalExhausted =>
    "implicit positional parameter " ++ parameter ++ " does not have a corresponding positional binding"
  | .explicitNotAllowed => "explicit positional parameters are not allowed in expand: " ++ parameter
  | .namedNotAllowed => "named parameters are not allowed in expand: " ++ parameter

end BindError
end Placeholder
