import Placeholder.Json.Numeral
import Placeholder.Json.Text

/-! JSON texts read into values. -/
namespace Placeholder.Json

def skipBlanks (cs : List Char) : List Char :=
  cs.dropWhile fun c => c == ' ' || c == '\n' || c == '\t' || c == '\r'

variable {α : Type}

/-- At most `n` items between commas, at least one, through the closing mark. -/
def readItems (item : List Char → Option (α × List Char)) (close : Char) :
    Nat → List Char → Option (List α × List Char)
  | 0, _ => none
  | n + 1, cs =>
    match item cs with
    | none => none
    | some (a, rest) =>
      match skipBlanks rest with
      | [] => none
      | c :: rest =>
        if c = close then some ([a], rest)
        else if c = ',' then (readItems item close n rest).map fun (as, rest) => (a :: as, rest)
        else none

/-- Items between commas, perhaps none, through the closing mark. No item is empty, so the text has at
least as many characters as items. -/
def readList (item : List Char → Option (α × List Char)) (close : Char) (cs : List Char) :
    Option (List α × List Char) :=
  match skipBlanks cs with
  | [] => none
  | c :: rest => if c = close then some ([], rest) else readItems item close cs.length (c :: rest)

def readMember (value : List Char → Option (α × List Char)) (cs : List Char) :
    Option ((String × α) × List Char) :=
  match skipBlanks cs with
  | [] => none
  | c :: rest =>
    if c = '\x22' then
      match readQuoted rest with
      | none => none
      | some (name, rest) =>
        match skipBlanks rest with
        | ':' :: rest => (value rest).map fun (a, rest) => ((String.ofList name, a), rest)
        | _ => none
    else none

def readWord : List Char → Option (Json × List Char)
  | 'n' :: 'u' :: 'l' :: 'l' :: rest => some (.null, rest)
  | 't' :: 'r' :: 'u' :: 'e' :: rest => some (.bool true, rest)
  | 'f' :: 'a' :: 'l' :: 's' :: 'e' :: rest => some (.bool false, rest)
  | _ => none

def readNumber (cs : List Char) : Option (Json × List Char) :=
  match Numeral.read? cs with
  | some (numeral, rest) => numeral.toNumber?.map fun n => (.number n, rest)
  | none => none

/-- The value at the front of a text, with arrays and objects at most `depth` deep in one another. -/
def readValue (depth : Nat) (cs : List Char) : Option (Json × List Char) :=
  match skipBlanks cs with
  | [] => none
  | c :: rest =>
    if c = '\x22' then (readQuoted rest).map fun (text, rest) => (.string (String.ofList text), rest)
    else if c = '[' then
      match depth with
      | 0 => none
      | depth + 1 => (readList (readValue depth) ']' rest).map fun (js, rest) => (.array js, rest)
    else if c = '\x7b' then
      match depth with
      | 0 => none
      | depth + 1 =>
        (readList (readMember (readValue depth)) '\x7d' rest).map fun (ms, rest) => (.object ms, rest)
    else if c = '-' ∨ c.isDigit then readNumber (c :: rest)
    else readWord (c :: rest)

def maxDepth : Nat := 127

/-- The value that a text stands for. Only blanks may follow it. -/
def parse? (text : String) : Option Json :=
  match readValue maxDepth text.toList with
  | some (json, rest) => if skipBlanks rest = [] then some json else none
  | none => none

end Placeholder.Json
