import Placeholder.Command.Basic
import Placeholder.Command.Bindings

/-! Invocations: a command with its query and its bindings, wherever they come from. -/
namespace Placeholder

inductive QuerySource
  | given (query : String)
  | file (path : String)
  | standardInput
deriving DecidableEq, Repr

namespace QuerySource

/-- A query that is given comes before a file, and a file before standard input. -/
def choose (query path : Option String) : QuerySource :=
  match query, path with
  | some query, _ => .given query
  | none, some path => .file path
  | none, none => .standardInput

def read (readFile : String → Except ReadError String) (stdin : Except ReadError String) :
    QuerySource → Except Failure String
  | .given query => .ok query
  | .file path => (readFile path).mapError .query
  | .standardInput => stdin.mapError .query

end QuerySource

structure Invocation where
  command : Command
  format : Format
  verbose : Bool
  query : QuerySource
  bindings : BindingSources
deriving DecidableEq, Repr

namespace Invocation

def paths (invocation : Invocation) : List String :=
  (match invocation.query with
    | .file path => [path]
    | _ => []) ++ invocation.bindings.file.toList

/-- Reads the query, then the bindings, then does the command. The first failure ends the work. -/
def run (complain : Contents → String → String) (readFile : String → Except ReadError String)
    (stdin : Except ReadError String) (invocation : Invocation) : Traced Failure String := do
  let query ← .ofExcept (invocation.query.read readFile stdin)
  .emit (.readQuery query.utf8ByteSize)
  let env ←
    if invocation.command.takesBindings then invocation.bindings.load complain readFile else pure .empty
  (invocation.command.run invocation.format env query).mapError .bind

end Invocation
end Placeholder
