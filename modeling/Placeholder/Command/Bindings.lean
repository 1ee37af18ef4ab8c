import Placeholder.Command.Failure
import Placeholder.Environment
import Placeholder.Json.Reader
import Placeholder.Traced

/-! Bindings read from JSON: from a file, and from texts on the command line. -/
namespace Placeholder

def Json.Number.int64? : Json.Number → Option Int64
  | .integer n => if Int64.minValue.toInt ≤ n ∧ n ≤ Int64.maxValue.toInt then some (.ofInt n) else none
  | .real _ => none

def Json.Number.float? : Json.Number → Option Float
  | .integer n => some (.ofInt n)
  | .real x => some x

/-- A number of SQL: an integer where 64 bits with a sign hold it, else a float. -/
def Value.ofNumber? (n : Json.Number) : Option Value :=
  (n.int64?.map .int).or (n.float?.map .float)

/-- The value that a JSON value stands for. It is to be no array. -/
def Value.ofJson : Json → Except Unbindable Value
  | .null => .ok .null
  | .bool b => .ok (.bool b)
  | .number n => (ofNumber? n).elim (.error .numberOutOfRange) .ok
  | .string s => .ok (.text s)
  | .array _ => .error .array
  | .object _ => .error .object

def Value.ofElement : Json → Except Unbindable Value
  | .array _ => .error .nestedArray
  | json => ofJson json

/-- The binding that a JSON value stands for: an array is a list of values. -/
def Binding.ofJson : Json → Except Unbindable (Binding Value)
  | .array elements => .sequence <$> elements.mapM Value.ofElement
  | json => .scalar <$> Value.ofJson json

def Binding.ofNamedJson (name : String) (json : Json) : Except Failure (Binding Value) :=
  (ofJson json).mapError (.invalidBinding name)

namespace Environment

/-- Binds the members of an object, in the order of their names. -/
def addNamed (env : Environment Value) (members : List (String × Json)) :
    Except Failure (Environment Value) :=
  (Json.fields members).toList.foldlM (fun env (name, json) =>
    env.bindName name <$> Binding.ofNamedJson name json) env

def addPositional (env : Environment Value) (elements : List Json) : Except Failure (Environment Value) :=
  elements.foldlM (fun env json =>
    env.bindNext <$> Binding.ofNamedJson ("#" ++ toString (env.positionals.length + 1)) json) env

end Environment

def Json.members? : Json → Option (List (String × Json))
  | .object members => some members
  | _ => none

def Json.elements? : Json → Option (List Json)
  | .array elements => some elements
  | _ => none

/-- What a bindings file holds: the members of its named part and the elements of its positional part. -/
structure BindingsFile where
  named : List (String × Json)
  positional : List Json

/-- Reads a bindings file. It is an object with either part, both or none, and nothing else; or an array of
the named part and the positional part, either both, the first or none. -/
def BindingsFile.ofJson? : Json → Option BindingsFile
  | .object members => do
    guard (members.map Prod.fst).Nodup
    guard (members.all fun (name, _) => name == "named" || name == "positional")
    let named ← (members.lookup "named").elim (some []) Json.members?
    let positional ← (members.lookup "positional").elim (some []) Json.elements?
    return ⟨named, positional⟩
  | .array [] => some ⟨[], []⟩
  | .array [named] => do return ⟨← named.members?, []⟩
  | .array [named, positional] => do return ⟨← named.members?, ← positional.elements?⟩
  | _ => none

structure BindingSources where
  /-- The path of a bindings file. -/
  file : Option String
  /-- A JSON object of named bindings. -/
  named : Option String
  /-- A JSON array of positional bindings. -/
  positional : Option String
deriving DecidableEq, Repr

/-- What a JSON text is to hold. -/
inductive Contents
  | bindingsFile
  | object
  | array
deriving DecidableEq, Repr

namespace BindingSources

/-- The part that is wanted of a JSON text. Of a text without it the reader of JSON complains in its own words. -/
def parse (complain : String → String) (part : Json → Option α) (text : String) : Except Failure α :=
  match (Json.parse? text).bind part with
  | some a => .ok a
  | none => .error (.json (complain text))

variable (complain : Contents → String → String)

/-- The bindings of the sources that are present: the file first, then the named ones, which replace those
of the file, then the positional ones, which follow those of the file. A source is read only when all
before it have been converted. -/
def environment (read : String → Except ReadError String) (sources : BindingSources) :
    Except Failure (Environment Value) := do
  let mut env := .empty
  if let some path := sources.file then
    let text ← (read path).mapError (.bindingsFile path)
    let file ← parse (complain .bindingsFile) BindingsFile.ofJson? text
    env ← env.addNamed file.named
    env ← env.addPositional file.positional
  if let some text := sources.named then
    env ← env.addNamed (← parse (complain .object) Json.members? text)
  if let some text := sources.positional then
    env ← env.addPositional (← parse (complain .array) Json.elements? text)
  return env

def load (read : String → Except ReadError String) (sources : BindingSources) :
    Traced Failure (Environment Value) := do
  let env ← .ofExcept (sources.environment complain read)
  .emit (.loadedBindings env.named.size env.positionals.length)
  return env

end BindingSources
end Placeholder
