import Placeholder.Decimal.Layout

/-! Values of SQL, their literals, and the types that stand for them. -/
namespace Placeholder

inductive Value
  | null
  | bool (b : Bool)
  | int (n : Int64)
  | float (x : Float)
  | text (s : String)
  | blob (bytes : List UInt8)
deriving DecidableEq

namespace Value

/-- Floats are written without an exponent, whole ones without a point, and of two equally near shortest
decimals as the greater. -/
def floatLiteral : Decimal.Layout where
  tie := .up
  isPlain _ := true
  wholeEnding := ""
  nan := "NaN"
  infinity := "inf"
  negativeInfinity := "-inf"

def hexByte (byte : UInt8) : List Char :=
  let digit (n : Nat) : Char := (Nat.digitChar n).toUpper
  [digit (byte.toNat / 16), digit (byte.toNat % 16)]

def doubleQuotes (text : List Char) : List Char :=
  text.flatMap fun c => if c = '\x27' then ['\x27', '\x27'] else [c]

/-- The value as a literal of SQL, to be read by people. -/
def literal : Value → String
  | .null => "NULL"
  | .bool true => "TRUE"
  | .bool false => "FALSE"
  | .int n => toString n.toInt
  | .float x => floatLiteral.render x
  | .text s => String.ofList ('\x27' :: doubleQuotes s.toList ++ ['\x27'])
  | .blob bytes => String.ofList ('X' :: '\x27' :: bytes.flatMap hexByte ++ ['\x27'])

/-- The values are equal as numbers or texts are: a float that is no number differs from itself, and the
two zeros are equal. -/
def agrees : Value → Value → Bool
  | .float x, .float y => x == y
  | v, w => v == w

end Value

class ToValue (α : Type) where
  toValue : α → Value

export ToValue (toValue)

instance : ToValue Value := ⟨id⟩
instance : ToValue Bool := ⟨.bool⟩
instance : ToValue Int64 := ⟨.int⟩
instance : ToValue Int32 := ⟨fun n => .int n.toInt64⟩
instance : ToValue Int16 := ⟨fun n => .int n.toInt64⟩
instance : ToValue Int8 := ⟨fun n => .int n.toInt64⟩
instance : ToValue UInt32 := ⟨fun n => .int n.toUInt64.toInt64⟩
instance : ToValue UInt16 := ⟨fun n => .int n.toUInt64.toInt64⟩
instance : ToValue UInt8 := ⟨fun n => .int n.toUInt64.toInt64⟩
instance : ToValue Float := ⟨.float⟩
instance : ToValue Float32 := ⟨fun x => .float x.toFloat⟩
instance : ToValue String := ⟨.text⟩
instance : ToValue (List UInt8) := ⟨.blob⟩

/-- A missing element is null. -/
instance {α : Type} [ToValue α] : ToValue (Option α) :=
  ⟨fun a? => a?.elim .null toValue⟩

end Placeholder
