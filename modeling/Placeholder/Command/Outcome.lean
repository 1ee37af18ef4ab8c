import Placeholder.Command.Arguments

/-! What a run of the program comes to: an exit code, an output and a log. -/
namespace Placeholder

def Event.Field.render : Event.Field → String
  | .count n => toString n
  | .text s => s

/-- The event as a line of the log: its level in five columns, its words and its details. -/
def Event.logLine (event : Event) : String :=
  let level := event.level.name
  String.ofList (List.replicate (5 - level.length) ' ') ++ level ++ " " ++ event.message ++
    String.join (event.fields.map fun (name, field) => " " ++ name ++ "=" ++ field.render) ++ "\n"

/-- The log of events at a level or above it. -/
def Event.log (least : Level) (events : List Event) : String :=
  String.join ((events.filter fun event => least.rank ≤ event.level.rank).map logLine)

def endLine (text : String) : String :=
  if text.toList.getLast? = some '\n' then text else text ++ "\n"

inductive Outcome
  /-- The command line asks for no command. -/
  | stopped (stop : Arguments.Stop)
  /-- A command was run. -/
  | finished (verbose : Bool) (work : Traced Failure String)

namespace Outcome

/-- Runs the program with its arguments, the format that the environment asks for, the words of the reader of
JSON, the files and standard input. -/
def run (environment : Option String) (complain : Contents → String → String)
    (readFile : String → Except ReadError String) (stdin : Except ReadError String) (args : List String) :
    Outcome :=
  match Arguments.parse environment args with
  | .ok invocation => .finished invocation.verbose (invocation.run complain readFile stdin)
  | .error stop => .stopped stop

def exitCode : Outcome → UInt32
  | .stopped .version => 0
  | .stopped .misuse => 2
  | .finished _ work =>
    match work.result with
    | .ok _ => 0
    | .error _ => 1

/-- What is printed. A failed command prints nothing. -/
def output : Outcome → String
  | .stopped .version => "oxide-params 0.1.0\n"
  | .stopped .misuse => ""
  | .finished _ work =>
    match work.result with
    | .ok output => endLine output
    | .error _ => ""

def log : Outcome → String
  | .stopped .version => ""
  | .stopped .misuse => "error: invalid arguments\n"
  | .finished verbose work =>
    Event.log (if verbose then .debug else .info) work.events ++
      match work.result with
      | .ok _ => ""
      | .error failure => failure.report

end Outcome
end Placeholder
