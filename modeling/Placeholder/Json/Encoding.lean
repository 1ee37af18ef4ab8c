import Placeholder.Binding
import Placeholder.Json.Writer
import Placeholder.Token.Basic
import Placeholder.Value

/-! Tokens, values and bindings as JSON. -/
namespace Placeholder

def Span.toJson (s : Span) : Json :=
  .object [("start", .number (.integer s.start)), ("end", .number (.integer s.stop))]

def Token.toJson (t : Token) : Json :=
  .object [("kind", .string t.kind.name), ("text", .string t.text), ("inside", .string t.inside),
    ("span", t.span.toJson)]

/-- The value itself. Bytes are an array of numbers. -/
def Value.toJson : Value → Json
  | .null => .null
  | .bool b => .bool b
  | .int n => .number (.integer n.toInt)
  | .float x => .number (.real x)
  | .text s => .string s
  | .blob bytes => .array (bytes.map fun byte => .number (.integer byte.toNat))

def Binding.toJson : Binding Value → Json
  | .scalar value => value.toJson
  | .sequence values => .array (values.map Value.toJson)

end Placeholder
