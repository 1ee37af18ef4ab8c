import Placeholder.Json.Encoding
import Placeholder.Bound.Query
import Placeholder.Text.Quoted

/-! Listings: tokens and bound queries as texts to be printed. -/
namespace Placeholder

inductive Format
  /-- For people: a line for each token or binding. -/
  | text
  /-- For programs: a JSON value. -/
  | json
deriving DecidableEq, Repr

def Format.ofName? : String → Option Format
  | "text" => some .text
  | "json" => some .json
  | _ => none

namespace Listing

def padEnd (width : Nat) (text : String) : String :=
  text ++ String.ofList (List.replicate (width - text.length) ' ')

/-- A token in one line: its kind, its span and its text in quotes. Characters in `hidden` are escaped. -/
def tokenLine (hidden : Char → Bool) (t : Token) : String :=
  padEnd 12 t.kind.name ++ " " ++ padEnd 10 t.span.render ++ " " ++ Text.quoteBy hidden t.text ++ "\n"

def tokenLines (hidden : Char → Bool) (tokens : List Token) : String :=
  String.join (tokens.map (tokenLine hidden))

def tokens (format : Format) (tokens : List Token) : String :=
  match format with
  | .text => tokenLines Unicode.isHidden tokens
  | .json => (Json.array (tokens.map Token.toJson)).renderLines

/-- The lines of literals, which SQL takes for comments, counted from `k` on. -/
def literalLines (k : Nat) : List String → String
  | [] => ""
  | literal :: literals => "-- " ++ toString k ++ ": " ++ literal ++ "\n" ++ literalLines (k + 1) literals

def withLiterals (query : String) (literals : List String) : String :=
  query ++ "\n" ++ literalLines 1 literals

def withBindings (query : String) (bindings : List Json) : String :=
  (Json.object [("query", .string query), ("bindings", .array bindings)]).renderLines

/-- A binding as a literal, a list between parentheses. -/
def literal : Binding Value → String
  | .scalar value => value.literal
  | .sequence values => "(" ++ ", ".intercalate (values.map Value.literal) ++ ")"

def resolved (format : Format) (r : BoundQuery (Binding Value)) : String :=
  match format with
  | .text => withLiterals r.query (r.bindings.map literal)
  | .json => withBindings r.query (r.bindings.map Binding.toJson)

def expanded (format : Format) (r : BoundQuery Value) : String :=
  match format with
  | .text => withLiterals r.query (r.bindings.map Value.literal)
  | .json => withBindings r.query (r.bindings.map Value.toJson)

end Listing
end Placeholder
