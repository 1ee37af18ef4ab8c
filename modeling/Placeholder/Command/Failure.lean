import Placeholder.BindError

/-! What can go wrong when a command runs. -/
namespace Placeholder

/-- Why a text cannot be read from a file or from standard input. -/
inductive ReadError
  | notFound
  | isDirectory
  | notDirectory
  | notText
  | other (reason : String)
deriving DecidableEq, Repr

def ReadError.message : ReadError → String
  | notFound => "No such file or directory (os error 2)"
  | isDirectory => "Is a directory (os error 21)"
  | notDirectory => "Not a directory (os error 20)"
  | notText => "stream did not contain valid UTF-8"
  | other reason => reason

def decodeText (bytes : ByteArray) : Except ReadError String :=
  match String.fromUTF8? bytes with
  | some text => .ok text
  | none => .error .notText

/-- Why a JSON value is no binding. -/
inductive Unbindable
  | object
  /-- An array among the elements of an array. -/
  | nestedArray
  /-- An array where there is to be a single value. -/
  | array
  /-- A number that neither an integer of 64 bits nor a float stands for. -/
  | numberOutOfRange
deriving DecidableEq, Repr

def Unbindable.message : Unbindable → String
  | object => "objects are not supported"
  | nestedArray => "nested arrays are not supported"
  | array => "arrays are only supported at the top level"
  | numberOutOfRange => "number is out of range"

/-- Why a command fails. -/
inductive Failure
  /-- The query cannot be read. -/
  | query (reason : ReadError)
  /-- The bindings file cannot be read. -/
  | bindingsFile (path : String) (reason : ReadError)
  /-- A text is not the JSON that is wanted. The complaint is that of the reader of JSON. -/
  | json (complaint : String)
  /-- A value is no binding. A positional one is named by its number. -/
  | invalidBinding (name : String) (reason : Unbindable)
  /-- The query cannot be bound. -/
  | bind (error : BindError)
deriving DecidableEq, Repr

namespace Failure

def message : Failure → String
  | query reason => "IO error: " ++ reason.message
  | bindingsFile path reason => "Failed to read bindings file '" ++ path ++ "': " ++ reason.message
  | json complaint => "JSON error: " ++ complaint
  | invalidBinding name reason => "Invalid binding for " ++ name ++ ": " ++ reason.message
  | bind error => error.message

/-- What lies behind the failure, in words. -/
def cause? : Failure → Option String
  | query reason | bindingsFile _ reason => some reason.message
  | json complaint => some complaint
  | invalidBinding .. | bind _ => none

def indent (text : String) : String :=
  "    " ++ String.ofList (text.toList.flatMap fun c => if c = '\n' then '\n' :: "    ".toList else [c])

/-- The failure as it is reported at the end of a run. -/
def report (f : Failure) : String :=
  "Error: " ++ f.message ++ "\n" ++
    match f.cause? with
    | some cause => "\nCaused by:\n" ++ indent cause ++ "\n"
    | none => ""

end Failure
end Placeholder
