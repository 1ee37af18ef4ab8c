import Placeholder.BindError
import Placeholder.Environment
import Placeholder.Bound.Index
import Placeholder.Traced

/-! Resolution: every parameter becomes a placeholder, with the binding that the parameter refers to. -/
namespace Placeholder

/-- Tokens whose parameters are placeholders, with what they are bound to, in order. -/
structure BoundTokens (β : Type) where
  tokens : List Token
  bindings : List β
deriving DecidableEq

variable {α : Type}

/-- The positional binding with a one-based index. -/
def Environment.atIndex (env : Environment α) (digits : String) : Except BindError.Cause (Binding α) :=
  match readIndex digits.toList with
  | .error .malformed | .ok 0 => .error .invalidExplicitIndex
  | .error .tooLarge => .error (.positionalOutOfRange env.positionals.length)
  | .ok (n + 1) =>
    match env.positionals[n]? with
    | some binding => .ok binding
    | none => .error (.positionalOutOfRange env.positionals.length)

/-- The binding that is referred to, when `used` placeholders have taken theirs before. -/
def Environment.referent (env : Environment α) (used : Nat) : Reference → Except BindError.Cause (Binding α)
  | .next => (env.positionals[used]?).elim (.error .positionalExhausted) .ok
  | .index digits => env.atIndex digits
  | .name name => (env.lookup? name).elim (.error .unboundName) .ok

namespace Token

/-- Resolves tokens, when `used` placeholders come before them. The number of all placeholders is given
beside the result. -/
def resolveFrom (env : Environment α) :
    Nat → List Token → Traced BindError (BoundTokens (Binding α) × Nat)
  | used, [] => pure (⟨[], []⟩, used)
  | used, t :: ts =>
    match t.reference? with
    | none => do
      let (rest, total) ← resolveFrom env used ts
      return (⟨t :: rest.tokens, rest.bindings⟩, total)
    | some reference => do
      let binding ← .ofExcept ((env.referent used reference).mapError (.ofToken · t))
      .emit (.resolvedParameter t.text t.kind)
      let (rest, total) ← resolveFrom env (if reference = .next then used + 1 else used) ts
      return (⟨.implicit t.span :: rest.tokens, binding :: rest.bindings⟩, total)

def resolve (env : Environment α) (tokens : List Token) : Traced BindError (BoundTokens (Binding α)) := do
  let (bound, used) ← resolveFrom env 0 tokens
  .emit (.resolvedTokens bound.bindings.length env.positionals.length used)
  return bound

end Token
end Placeholder
