import Placeholder.Command.Failure
import Placeholder.Proofs.Lines

/-!
Failures in words. What is said of each kind of failure is told apart from the functions that say it, and the report
of a failure is lines: what is said of it, and below it the cause.
-/
namespace Placeholder

inductive ReadError.Says : ReadError → String → Prop
  | notFound : Says .notFound "No such file or directory (os error 2)"
  | isDirectory : Says .isDirectory "Is a directory (os error 21)"
  | notDirectory : Says .notDirectory "Not a directory (os error 20)"
  | notText : Says .notText "stream did not contain valid UTF-8"
  | other {reason : String} : Says (.other reason) reason

inductive Unbindable.Says : Unbindable → String → Prop
  | object : Says .object "objects are not supported"
  | nestedArray : Says .nestedArray "nested arrays are not supported"
  | array : Says .array "arrays are only supported at the top level"
  | numberOutOfRange : Says .numberOutOfRange "number is out of range"

/-- What is said before and behind a parameter that cannot be bound. -/
inductive BindError.Cause.Says : BindError.Cause → String → String → Prop
  | unboundName : Says .unboundName "named parameter " " does not have a corresponding binding"
  | invalidExplicitIndex : Says .invalidExplicitIndex "invalid explicit positional parameter " ": index is one-based"
  | positionalOutOfRange {available : Nat} :
    Says (.positionalOutOfRange available) "explicit positional parameter "
      (" does not have a corresponding positional binding (" ++ toString available ++ " supplied)")
  | positionalExhausted :
    Says .positionalExhausted "implicit positional parameter " " does not have a corresponding positional binding"
  | explicitNotAllowed :
    Says .explicitNotAllowed "explicit positional parameters are not allowed in expand: " ""
  | namedNotAllowed : Says .namedNotAllowed "named parameters are not allowed in expand: " ""

/-- What is said of a failure, and what is named as its cause. -/
inductive Failure.Says : Failure → String → Option String → Prop
  | query {reason : ReadError} {words : String} :
    reason.Says words → Says (.query reason) ("IO error: " ++ words) (some words)
  | bindingsFile {path : String} {reason : ReadError} {words : String} : reason.Says words →
    Says (.bindingsFile path reason) ("Failed to read bindings file '" ++ path ++ "': " ++ words) (some words)
  | json {complaint : String} : Says (.json complaint) ("JSON error: " ++ complaint) (some complaint)
  | invalidBinding {name : String} {reason : Unbindable} {words : String} : reason.Says words →
    Says (.invalidBinding name reason) ("Invalid binding for " ++ name ++ ": " ++ words) none
  | bind {cause : BindError.Cause} {text before behind : String} {start stop : Nat} : cause.Says before behind →
    Says (.bind ⟨cause, text, ⟨start, stop⟩⟩) (before ++ (Text.quoteBy Unicode.isHidden text ++ " at " ++
      (toString start ++ ".." ++ toString stop)) ++ behind) none

theorem ReadError.says_message (reason : ReadError) : reason.Says reason.message := by
  cases reason <;> constructor

theorem Unbindable.says_message (reason : Unbindable) : reason.Says reason.message := by
  cases reason <;> constructor

theorem BindError.says_message (e : BindError) : (Failure.bind e).Says e.message none := by
  obtain ⟨cause, text, start, stop⟩ := e
  have hsays : ∀ {before behind : String}, cause.Says before behind →
      (Failure.bind ⟨cause, text, ⟨start, stop⟩⟩).Says
        (before ++ (Text.quote text ++ " at " ++ Span.render ⟨start, stop⟩) ++ behind) none := .bind
  cases cause with
  | unboundName => exact hsays .unboundName
  | invalidExplicitIndex => exact hsays .invalidExplicitIndex
  | positionalOutOfRange available => simpa [message, String.append_assoc] using hsays .positionalOutOfRange
  | positionalExhausted => exact hsays .positionalExhausted
  | explicitNotAllowed => simpa [message, String.append_assoc] using hsays .explicitNotAllowed
  | namedNotAllowed => simpa [message, String.append_assoc] using hsays .namedNotAllowed

theorem Failure.says_message (f : Failure) : f.Says f.message f.cause? := by
  cases f with
  | query reason => exact .query reason.says_message
  | bindingsFile path reason => exact .bindingsFile reason.says_message
  | json complaint => exact .json
  | invalidBinding name reason => exact .invalidBinding reason.says_message
  | bind e => exact e.says_message

/-- The lines below a failure that has a cause: each line of the cause behind four blanks. -/
def causeLines : Option String → List String
  | none => []
  | some cause => "" :: "Caused by:" :: (cause.toList.splitOn '\n').map fun line => "    " ++ String.ofList line

private theorem indent_append_newline (text : String) :
    Failure.indent text ++ "\n" =
      unlines ((text.toList.splitOn '\n').map fun line => "    " ++ String.ofList line) := by
  rw [← String.toList_inj, toList_unlines, List.flatMap_map]
  simpa [Failure.indent] using surround_eq_flatMap "    ".toList ['\n']

theorem report_eq_unlines (f : Failure) :
    f.report = unlines (("Error: " ++ f.message) :: causeLines f.cause?) := by
  rw [Failure.report, unlines_cons]
  cases f.cause? with
  | none => rfl
  | some cause =>
    have hhead : "\nCaused by:\n" = "" ++ "\n" ++ ("Caused by:" ++ "\n") := rfl
    rw [causeLines, unlines_cons, unlines_cons, ← indent_append_newline]
    simp only [hhead, String.append_assoc]

end Placeholder
