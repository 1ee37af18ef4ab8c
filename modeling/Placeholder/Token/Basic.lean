import Placeholder.Span

/-! Tokens of a query: plain text and four kinds of parameter. -/
namespace Placeholder

/-- What a stretch of a query is. -/
inductive Kind
  /-- Text that is no parameter, comments and quoted text included. -/
  | other
  /-- A placeholder that takes the next positional binding. -/
  | implicit
  /-- A reference to a positional binding by its one-based index. -/
  | explicit
  /-- A reference to a binding by name, after a sigil. -/
  | named
  /-- A reference to a binding by name, between percent-parentheses. -/
  | percentNamed
deriving DecidableEq, Inhabited, Repr

namespace Kind

def isParameter : Kind → Bool
  | .other => false
  | _ => true

def isNamed : Kind → Bool
  | .named | .percentNamed => true
  | _ => false

def name : Kind → String
  | .other => "other"
  | .implicit => "implicit"
  | .explicit => "explicit"
  | .named => "named"
  | .percentNamed => "named_python"

end Kind

inductive Reference
  /-- The next positional binding. -/
  | next
  /-- The positional binding with a one-based index, given as it is written. -/
  | index (digits : String)
  /-- The binding of a name. -/
  | name (name : String)
deriving DecidableEq, Repr

/-- A stretch of a query. `inside` is the part that says which binding is meant. -/
structure Token where
  kind : Kind
  text : String
  inside : String
  span : Span
deriving DecidableEq, Inhabited, Repr

namespace Token

def other (text : String) (span : Span) : Token :=
  ⟨.other, text, "", span⟩

/-- The canonical placeholder, standing for what was at `span`. -/
def implicit (span : Span) : Token :=
  ⟨.implicit, "?", "?", span⟩

def isParameter (t : Token) : Bool :=
  t.kind.isParameter

def isImplicit (t : Token) : Bool :=
  t.kind == .implicit

def reference? (t : Token) : Option Reference :=
  match t.kind with
  | .other => none
  | .implicit => some .next
  | .explicit => some (.index t.inside)
  | .named | .percentNamed => some (.name t.inside)

def shift (n : Nat) (t : Token) : Token :=
  { t with span := t.span.shift n }

def render (tokens : List Token) : String :=
  String.join (tokens.map text)

theorem toList_render (tokens : List Token) :
    (render tokens).toList = tokens.flatMap fun t => t.text.toList := by
  simp [render, String.toList_join, List.flatMap_map]

theorem render_append (tokens tokens' : List Token) :
    render (tokens ++ tokens') = render tokens ++ render tokens' := by
  simp [← String.toList_inj, toList_render]

end Token
end Placeholder
