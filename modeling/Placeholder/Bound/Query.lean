import Placeholder.Bound.Expand
import Placeholder.Token.Piece

/-! Whole queries resolved and expanded. -/
namespace Placeholder

variable {α β : Type}

/-- A query whose parameters are placeholders, with what they are bound to, in order. -/
structure BoundQuery (β : Type) where
  query : String
  bindings : List β
deriving DecidableEq

def BoundTokens.toQuery (bound : BoundTokens β) : BoundQuery β :=
  ⟨Token.render bound.tokens, bound.bindings⟩

/-- Replaces every parameter of a query by a placeholder. -/
def resolve (env : Environment α) (query : String) : Traced BindError (BoundQuery (Binding α)) := do
  let bound ← Token.resolve env (lex query)
  return bound.toQuery

/-- Replaces every placeholder of a query that is bound to a list by a list of placeholders. -/
def expand (bindings : List (Binding α)) (query : String) : Traced BindError (BoundQuery α) := do
  let bound ← Token.expand bindings (lex query)
  return bound.toQuery

/-- Resolves a query and expands what comes of it, without writing the text in between. -/
def resolveAndExpand (env : Environment α) (query : String) : Traced BindError (BoundQuery α) := do
  let resolved ← Token.resolve env (lex query)
  let bound ← Token.expand resolved.bindings resolved.tokens
  return bound.toQuery

end Placeholder
