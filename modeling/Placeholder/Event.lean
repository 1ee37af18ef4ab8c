import Placeholder.Token.Basic

/-! Events: what the program reports of its work while it is done. -/
namespace Placeholder

/-- How much an event matters, from least to most. -/
inductive Level
  | trace
  | debug
  | info
  | warn
deriving DecidableEq, Repr

def Level.name : Level → String
  | .trace => "TRACE"
  | .debug => "DEBUG"
  | .info => "INFO"
  | .warn => "WARN"

def Level.rank : Level → Nat
  | .trace => 0
  | .debug => 1
  | .info => 2
  | .warn => 3

inductive Event
  | resolvedParameter (text : String) (kind : Kind)
  | resolvedTokens (parameters positionals implicitConsumed : Nat)
  | expandedSequence (span : Span) (elements : Nat)
  | expandedTokens (supplied unused parameters : Nat)
  | readQuery (bytes : Nat)
  | loadedBindings (named positional : Nat)
  | namedIgnored (named : Nat)
  | lexedQuery (tokens : Nat)
  | resolvedQuery (bindings : Nat)
  | expandedQuery (bindings : Nat)
  | resolvedAndExpandedQuery (bindings : Nat)
deriving DecidableEq, Repr

inductive Event.Field
  | count (n : Nat)
  | text (s : String)
deriving DecidableEq, Repr

namespace Event

def level : Event → Level
  | resolvedParameter .. | expandedSequence .. => .trace
  | resolvedTokens .. | expandedTokens .. | readQuery .. | loadedBindings .. => .debug
  | lexedQuery .. | resolvedQuery .. | expandedQuery .. | resolvedAndExpandedQuery .. => .info
  | namedIgnored .. => .warn

def message : Event → String
  | resolvedParameter .. => "resolved parameter"
  | resolvedTokens .. => "resolved query parameters"
  | expandedSequence .. => "expanded sequence"
  | expandedTokens .. => "expanded query parameters"
  | readQuery .. => "read query"
  | loadedBindings .. => "loaded bindings"
  | namedIgnored .. => "named bindings are ignored by expand"
  | lexedQuery .. => "lexed query"
  | resolvedQuery .. => "resolved query"
  | expandedQuery .. => "expanded query"
  | resolvedAndExpandedQuery .. => "resolved and expanded query"

def fields : Event → List (String × Field)
  | resolvedParameter text kind => [("parameter", .text text), ("kind", .text kind.name)]
  | resolvedTokens parameters positionals implicitConsumed =>
    [("parameters", .count parameters), ("positionals", .count positionals),
     ("implicit_consumed", .count implicitConsumed)]
  | expandedSequence span elements => [("span", .text span.render), ("elements", .count elements)]
  | expandedTokens supplied unused parameters =>
    [("supplied", .count supplied), ("unused", .count unused), ("parameters", .count parameters)]
  | readQuery bytes => [("bytes", .count bytes)]
  | loadedBindings named positional => [("named", .count named), ("positional", .count positional)]
  | namedIgnored named => [("named", .count named)]
  | lexedQuery tokens => [("tokens", .count tokens)]
  | resolvedQuery bindings | expandedQuery bindings | resolvedAndExpandedQuery bindings =>
    [("bindings", .count bindings)]

end Event
end Placeholder
