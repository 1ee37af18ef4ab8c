import Placeholder.Decimal.Layout
import Placeholder.Json.Basic
import Placeholder.Json.Text

/-! JSON values written as texts, in one line or over many. -/
namespace Placeholder.Json

/-- Numbers from 0.00001 up to 10000000000000000 are written without an exponent, whole ones with a zero
after the point. What is no number is null. -/
def numberLayout : Decimal.Layout where
  tie := .even
  isPlain order := -5 ≤ order && order < 16
  wholeEnding := ".0"
  nan := "null"
  infinity := "null"
  negativeInfinity := "null"

def Number.render : Number → String
  | .integer n => toString n
  | .real x => numberLayout.render x

mutual

def compact : Json → List Char
  | .null => "null".toList
  | .bool true => "true".toList
  | .bool false => "false".toList
  | .number n => n.render.toList
  | .string s => quote s
  | .array elements => '[' :: compactElements elements ++ [']']
  | .object members => '\x7b' :: compactMembers members ++ ['\x7d']

def compactElements : List Json → List Char
  | [] => []
  | [j] => compact j
  | j :: js => compact j ++ ',' :: compactElements js

def compactMembers : List (String × Json) → List Char
  | [] => []
  | [(name, j)] => quote name ++ ':' :: compact j
  | (name, j) :: members => quote name ++ ':' :: compact j ++ ',' :: compactMembers members

end

/-- A new line, two spaces further in for each level. -/
def newLine (level : Nat) : List Char :=
  '\n' :: List.replicate (2 * level) ' '

mutual

/-- The value with an element or member a line, when it stands `level` levels deep. -/
def indented (level : Nat) : Json → List Char
  | .array [] => ['[', ']']
  | .array (j :: js) => '[' :: indentedElements (level + 1) (j :: js) ++ newLine level ++ [']']
  | .object [] => ['\x7b', '\x7d']
  | .object (m :: ms) => '\x7b' :: indentedMembers (level + 1) (m :: ms) ++ newLine level ++ ['\x7d']
  | j => compact j

def indentedElements (level : Nat) : List Json → List Char
  | [] => []
  | [j] => newLine level ++ indented level j
  | j :: js => newLine level ++ indented level j ++ ',' :: indentedElements level js

def indentedMembers (level : Nat) : List (String × Json) → List Char
  | [] => []
  | [(name, j)] => newLine level ++ quote name ++ ':' :: ' ' :: indented level j
  | (name, j) :: members =>
    newLine level ++ quote name ++ ':' :: ' ' :: indented level j ++ ',' :: indentedMembers level members

end

def render (json : Json) : String :=
  String.ofList (compact json)

def renderLines (json : Json) : String :=
  String.ofList (indented 0 json)

end Placeholder.Json
