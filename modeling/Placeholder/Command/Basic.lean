import Placeholder.Listing

/-! Commands: what the program does with a query and its bindings. -/
namespace Placeholder

inductive Command
  /-- List its tokens. -/
  | lex
  /-- Make every parameter a placeholder. -/
  | resolve
  /-- Make every placeholder bound to a list a list of placeholders. -/
  | expand
  /-- Resolve, then expand. -/
  | resolveExpand
deriving DecidableEq, Repr

namespace Command

def ofName? : String → Option Command
  | "lex" => some .lex
  | "resolve" => some .resolve
  | "expand" => some .expand
  | "resolve-expand" => some .resolveExpand
  | _ => none

def takesBindings : Command → Bool
  | .lex => false
  | _ => true

/-- Does a command and lists its result. -/
def run (command : Command) (format : Format) (env : Environment Value) (query : String) :
    Traced BindError String :=
  match command with
  | .lex => do
    let tokens := Placeholder.lex query
    .emit (.lexedQuery tokens.length)
    return Listing.tokens format tokens
  | .resolve => do
    let r ← Placeholder.resolve env query
    .emit (.resolvedQuery r.bindings.length)
    return Listing.resolved format r
  | .expand => do
    if !env.named.isEmpty then .emit (.namedIgnored env.named.size)
    let r ← Placeholder.expand env.positionals query
    .emit (.expandedQuery r.bindings.length)
    return Listing.expanded format r
  | .resolveExpand => do
    let r ← Placeholder.resolveAndExpand env query
    .emit (.resolvedAndExpandedQuery r.bindings.length)
    return Listing.expanded format r

end Command

end Placeholder
