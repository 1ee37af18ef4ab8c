import Placeholder.Bound.Resolve

/-! Expansion: a placeholder bound to a list becomes a list of placeholders, one for each value. -/
namespace Placeholder.Token

variable {α : Type}

/-- The tokens of a parenthesized list of placeholders in place of one at `span`. -/
def placeholders (count : Nat) (span : Span) : List Token :=
  .other "(" span :: (List.replicate count (.implicit span)).intersperse (.other ", " span) ++
    [.other ")" span]

/-- Expands tokens with the bindings that are left. The number of bindings left in the end is given beside
the result. -/
def expandFrom : List (Binding α) → List Token → Traced BindError (BoundTokens α × Nat)
  | left, [] => pure (⟨[], []⟩, left.length)
  | left, t :: ts =>
    match t.reference?, left with
    | none, _ => do
      let (rest, unused) ← expandFrom left ts
      return (⟨t :: rest.tokens, rest.bindings⟩, unused)
    | some (.index _), _ => .fail (.ofToken .explicitNotAllowed t)
    | some (.name _), _ => .fail (.ofToken .namedNotAllowed t)
    | some .next, [] => .fail (.ofToken .positionalExhausted t)
    | some .next, .scalar value :: left => do
      let (rest, unused) ← expandFrom left ts
      return (⟨t :: rest.tokens, value :: rest.bindings⟩, unused)
    | some .next, .sequence values :: left => do
      .emit (.expandedSequence t.span values.length)
      let (rest, unused) ← expandFrom left ts
      return (⟨placeholders values.length t.span ++ rest.tokens, values ++ rest.bindings⟩, unused)

/-- Replaces every placeholder bound to a list by a list of placeholders. -/
def expand (bindings : List (Binding α)) (tokens : List Token) : Traced BindError (BoundTokens α) := do
  let (bound, unused) ← expandFrom bindings tokens
  .emit (.expandedTokens bindings.length unused bound.bindings.length)
  return bound

end Placeholder.Token
