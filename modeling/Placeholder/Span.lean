import Placeholder.Text.Bytes

/-! Spans: half-open ranges of byte positions in a query. -/
namespace Placeholder

/-- The bytes from `start` up to, but not including, `stop`. -/
structure Span where
  start : Nat
  stop : Nat
deriving DecidableEq, Inhabited, Repr

namespace Span

/-- The number of bytes covered; a span that ends before it starts has none. -/
def length? (s : Span) : Option Nat :=
  if s.start ≤ s.stop then some (s.stop - s.start) else none

def isEmpty (s : Span) : Bool :=
  s.start == s.stop

def merge (s t : Span) : Span :=
  ⟨min s.start t.start, max s.stop t.stop⟩

def shift (n : Nat) (s : Span) : Span :=
  ⟨n + s.start, n + s.stop⟩

/-- The part of `source` in the span, if both ends are character boundaries of it, in order. -/
def slice (s : Span) (source : String) : Option String := do
  let length ← s.length?
  let (_, tail) ← Text.splitAt? s.start source.toList
  let (covered, _) ← Text.splitAt? length tail
  return String.ofList covered

/-- The written form, `start..stop`. -/
def render (s : Span) : String :=
  toString s.start ++ ".." ++ toString s.stop

end Span
end Placeholder
