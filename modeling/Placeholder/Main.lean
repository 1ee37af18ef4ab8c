import Placeholder.Command.Outcome

/-! The program: it reads what the command asks for, and prints what comes of it. -/
namespace Placeholder

def ReadError.ofIO : IO.Error → ReadError
  | .noFileOrDirectory .. => .notFound
  | .inappropriateType .. => .isDirectory
  | e => .other (toString e)

def readText (bytes : IO ByteArray) : IO (Except ReadError String) := do
  match ← bytes.toBaseIO with
  | .ok bytes => return decodeText bytes
  | .error e => return .error (.ofIO e)

/-- Reads the files that a command needs, and standard input if it needs that. -/
def gather (invocation : Invocation) :
    IO (List (String × Except ReadError String) × Except ReadError String) := do
  let files ← invocation.paths.mapM fun (path : String) => do
    return (path, ← readText (IO.FS.readBinFile path))
  let stdin ←
    if invocation.query = .standardInput then readText ((← IO.getStdin).readBinToEnd) else pure (.ok "")
  return (files, stdin)

/-- What is said of a JSON text that does not hold what it is to hold. The wording is the reader's own. -/
def Contents.complaint (contents : Contents) (_ : String) : String :=
  match contents with
  | .bindingsFile => "expected a bindings file"
  | .object => "expected an object"
  | .array => "expected an array"

end Placeholder

open Placeholder in
def main (args : List String) : IO UInt32 := do
  let environment ← IO.getEnv "OXIDE_PARAMS_FORMAT"
  let (files, stdin) ←
    match Arguments.parse environment args with
    | .ok invocation => gather invocation
    | .error _ => pure ([], .ok "")
  let readFile (path : String) := (files.lookup path).getD (.error .notFound)
  let outcome := Outcome.run environment Contents.complaint readFile stdin args
  IO.eprint outcome.log
  IO.print outcome.output
  return outcome.exitCode
