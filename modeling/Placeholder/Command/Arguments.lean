import Placeholder.Command.Invocation

/-!
The command line. Options come before or after the name of the command, and those with a value have it in
the same argument or in the next.
-/
namespace Placeholder

inductive Flag
  | format
  | verbose
  | version
  | file
  | named
  | positional
  | bindings
deriving DecidableEq, Repr

namespace Flag

def ofLetter? : Char → Option Flag
  | 'f' => some .format
  | 'v' => some .verbose
  | 'V' => some .version
  | 'n' => some .named
  | 'p' => some .positional
  | 'b' => some .bindings
  | _ => none

def ofName? : String → Option Flag
  | "format" => some .format
  | "verbose" => some .verbose
  | "version" => some .version
  | "file" => some .file
  | "named" => some .named
  | "positional" => some .positional
  | "bindings" => some .bindings
  | _ => none

def takesValue : Flag → Bool
  | .verbose | .version => false
  | _ => true

/-- The value is one that the option may have: a format is known, and a path is not empty. -/
def admits : Flag → String → Bool
  | .format, value => (Format.ofName? value).isSome
  | .file, value | .bindings, value => value != ""
  | _, _ => true

end Flag

inductive Arguments.Stop
  /-- The arguments break a rule. -/
  | misuse
  /-- The arguments ask for the version. -/
  | version
deriving DecidableEq, Repr

/-- The options given, with their values. -/
abbrev Arguments.Given := List (Flag × String)

namespace Arguments

/-- Notes an option, which must not have been given before. -/
def note (given : Given) (flag : Flag) (value : String) : Except Stop Given :=
  if flag = .version then .error .version
  else if (given.lookup flag).isSome || !flag.admits value then .error .misuse
  else .ok ((flag, value) :: given)

/-- Reads the options of one argument, letter by letter. What follows the letter of an option with a value
is the value, less an equals sign; if nothing follows, the option awaits its value. -/
def letters (allowed : Flag → Bool) (given : Given) : List Char → Except Stop (Given × Option Flag)
  | [] => .ok (given, none)
  | c :: cs =>
    match (Flag.ofLetter? c).filter allowed with
    | none => .error .misuse
    | some flag =>
      if flag.takesValue then
        match cs with
        | [] => .ok (given, some flag)
        | '=' :: value | value => do return (← note given flag (String.ofList value), none)
      else do letters allowed (← note given flag "") cs

/-- Reads an option given by its name, which may have its value after an equals sign. -/
def word (allowed : Flag → Bool) (given : Given) (cs : List Char) : Except Stop (Given × Option Flag) :=
  let name := String.ofList (cs.takeWhile (· != '='))
  match (Flag.ofName? name).filter allowed, cs.dropWhile (· != '=') with
  | none, _ => .error .misuse
  | some flag, [] =>
    if flag.takesValue then .ok (given, some flag) else do return (← note given flag "", none)
  | some flag, _ :: value =>
    if flag.takesValue then do return (← note given flag (String.ofList value), none) else .error .misuse

def isDashed (argument : String) : Bool :=
  match argument.toList with
  | '-' :: _ :: _ => true
  | _ => false

def argument (allowed : Flag → Bool) (given : Given) (arg : String) : Except Stop (Given × Option Flag) :=
  match arg.toList with
  | '-' :: '-' :: cs => word allowed given cs
  | cs => letters allowed given cs.tail

/-- Reads options up to the first argument that is none. -/
def options (allowed : Flag → Bool) (given : Given) : List String → Except Stop (Given × List String)
  | [] => .ok (given, [])
  | arg :: rest =>
    if isDashed arg && arg != "--" then
      match argument allowed given arg with
      | .error stop => .error stop
      | .ok (given, none) => options allowed given rest
      | .ok (given, some flag) =>
        match rest with
        | [] => .error .misuse
        | value :: rest =>
          if isDashed value then .error .misuse
          else
            match note given flag value with
            | .error stop => .error stop
            | .ok given => options allowed given rest
    else .ok (given, arg :: rest)

/-- Reads options around at most one query. After two dashes nothing is an option. -/
def optionsAndQuery (allowed : Flag → Bool) (args : List String) : Except Stop (Given × Option String) := do
  match ← options allowed [] args with
  | (given, []) => return (given, none)
  | (given, "--" :: []) => return (given, none)
  | (given, "--" :: [query]) => return (given, some query)
  | (_, "--" :: _) => throw .misuse
  | (given, query :: rest) =>
    match ← options allowed given rest with
    | (given, []) | (given, "--" :: []) => return (given, some query)
    | _ => throw .misuse

def beforeCommand : Flag → Bool
  | .format | .verbose | .version => true
  | _ => false

def afterCommand (command : Command) : Flag → Bool
  | .format | .verbose | .file => true
  | .named | .positional | .bindings => command.takesBindings
  | .version => false

/-- The format that options ask for. If they do not, the environment must not ask for an unknown one. -/
def format? (environment : Option String) (given : Given) : Except Stop (Option Format) :=
  match given.lookup .format, environment with
  | some name, _ => .ok (Format.ofName? name)
  | none, none => .ok none
  | none, some name => if (Format.ofName? name).isSome then .ok none else .error .misuse

/-- The command that the arguments ask for. `environment` is the format that the environment asks for,
which counts where no option does; an option after the command counts more than one before it. -/
def parse (environment : Option String) (args : List String) : Except Stop Invocation := do
  let (outer, rest) ← options beforeCommand [] args
  match rest with
  | [] => throw .misuse
  | name :: rest =>
    match Command.ofName? name with
    | none => throw .misuse
    | some command =>
      let (inner, query) ← optionsAndQuery (afterCommand command) rest
      let file := inner.lookup .file
      if query.isSome && file.isSome then throw .misuse
      let innerFormat ← format? environment inner
      let outerFormat ← format? environment outer
      return {
        command
        format := (innerFormat <|> outerFormat <|> environment.bind Format.ofName?).getD .text
        verbose := (inner.lookup .verbose).isSome || (outer.lookup .verbose).isSome
        query := .choose query file
        bindings := ⟨inner.lookup .bindings, inner.lookup .named, inner.lookup .positional⟩
      }

end Arguments
end Placeholder
