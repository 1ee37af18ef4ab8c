import Placeholder.Command.Outcome
import Placeholder.Proofs.Options
import Placeholder.Proofs.Passes
import Placeholder.Proofs.Reports

/-!
What a run of the program comes to. The stages of the work follow one another until one fails, and what the run
shows is told by how they end: the output of the last stage, or the report of the one that failed. Asking for
debugging adds lines to the log and does nothing else.
-/
namespace Placeholder

/-! Stages. -/

/-- What a command comes to, without events. -/
def Command.answer (command : Command) (format : Format) (env : Environment Value) (query : String) :
    Except BindError String :=
  match command with
  | .lex => .ok (Listing.tokens format (Placeholder.lex query))
  | .resolve => Listing.resolved format <$> (Placeholder.resolve env query).result
  | .expand => Listing.expanded format <$> (Placeholder.expand env.positionals query).result
  | .resolveExpand => Listing.expanded format <$> (Placeholder.resolveAndExpand env query).result

theorem Command.run_result (command : Command) (format : Format) (env : Environment Value) (query : String) :
    (command.run format env query).result = command.answer format env query := by
  cases command with
  | lex => rfl
  | resolve =>
    rw [run, answer, Traced.result_bind]
    cases (Placeholder.resolve env query).result <;> rfl
  | expand =>
    unfold run answer
    cases env.named.isEmpty <;> simp only [Bool.not_true, Bool.not_false, Bool.false_eq_true, if_true, if_false] <;>
      simp only [Traced.result_bind] <;> cases (Placeholder.expand env.positionals query).result <;> rfl
  | resolveExpand =>
    rw [run, answer, Traced.result_bind]
    cases (Placeholder.resolveAndExpand env query).result <;> rfl

/-- The text of the query, or why it cannot be read. -/
inductive QuerySource.Gives (readFile : String → Except ReadError String) (stdin : Except ReadError String) :
    QuerySource → Except ReadError String → Prop
  | given {query : String} : Gives readFile stdin (.given query) (.ok query)
  | file {path : String} : Gives readFile stdin (.file path) (readFile path)
  | standardInput : Gives readFile stdin .standardInput stdin

theorem QuerySource.read_of_gives {readFile : String → Except ReadError String} {stdin : Except ReadError String}
    {source : QuerySource} {r : Except ReadError String} (h : source.Gives readFile stdin r) :
    source.read readFile stdin = r.mapError .query := by
  cases h <;> rfl

theorem QuerySource.exists_gives (readFile : String → Except ReadError String) (stdin : Except ReadError String)
    (source : QuerySource) : ∃ r, source.Gives readFile stdin r := by
  cases source with
  | given query => exact ⟨_, .given⟩
  | file path => exact ⟨_, .file⟩
  | standardInput => exact ⟨_, .standardInput⟩

namespace Invocation

/-- The bindings that the command works with: none for listing tokens, else those that are loaded. -/
def loaded (invocation : Invocation) (complain : Contents → String → String)
    (readFile : String → Except ReadError String) : Except Failure (Environment Value) :=
  if invocation.command = .lex then .ok .empty else (invocation.bindings.load complain readFile).result

/-- How the work ends: with the first failure on the way from the query over the bindings to the command, or
with what the command comes to. -/
inductive Ends (complain : Contents → String → String) (readFile : String → Except ReadError String)
    (stdin : Except ReadError String) (invocation : Invocation) : Except Failure String → Prop
  | query {reason : ReadError} :
    invocation.query.Gives readFile stdin (.error reason) →
      Ends complain readFile stdin invocation (.error (.query reason))
  | bindings {query : String} {f : Failure} :
    invocation.query.Gives readFile stdin (.ok query) → invocation.loaded complain readFile = .error f →
      Ends complain readFile stdin invocation (.error f)
  | command {query : String} {env : Environment Value} {e : BindError} :
    invocation.query.Gives readFile stdin (.ok query) → invocation.loaded complain readFile = .ok env →
      invocation.command.answer invocation.format env query = .error e →
      Ends complain readFile stdin invocation (.error (.bind e))
  | output {query : String} {env : Environment Value} {text : String} :
    invocation.query.Gives readFile stdin (.ok query) → invocation.loaded complain readFile = .ok env →
      invocation.command.answer invocation.format env query = .ok text →
      Ends complain readFile stdin invocation (.ok text)

variable {complain : Contents → String → String} {readFile : String → Except ReadError String}
  {stdin : Except ReadError String} {invocation : Invocation}

private theorem run_of_query_error {reason : ReadError}
    (hquery : invocation.query.Gives readFile stdin (.error reason)) :
    (invocation.run complain readFile stdin).result = .error (.query reason) := by
  rw [run, QuerySource.read_of_gives hquery]
  rfl

private theorem run_of_query_ok {query : String} (hquery : invocation.query.Gives readFile stdin (.ok query)) :
    (invocation.run complain readFile stdin).result = invocation.loaded complain readFile >>= fun env =>
      (invocation.command.answer invocation.format env query).mapError .bind := by
  rw [run, QuerySource.read_of_gives hquery, loaded]
  simp only [← Command.run_result]
  cases invocation.command with
  | lex => rfl
  | resolve | expand | resolveExpand =>
    change (invocation.bindings.load complain readFile >>= fun env =>
      (Command.run _ invocation.format env query).mapError .bind).result = _
    rw [Traced.result_bind]
    rfl

/-- The work ends as the run says, and in no other way. -/
theorem ends_iff {r : Except Failure String} :
    invocation.Ends complain readFile stdin r ↔ (invocation.run complain readFile stdin).result = r := by
  constructor
  · intro h
    cases h with
    | query hquery => exact run_of_query_error hquery
    | bindings hquery hloaded => rw [run_of_query_ok hquery, hloaded]; rfl
    | @command query env e hquery hloaded hanswer =>
      rw [run_of_query_ok hquery, hloaded]
      change (invocation.command.answer invocation.format env query).mapError Failure.bind = _
      rw [hanswer]
      rfl
    | @output query env text hquery hloaded hanswer =>
      rw [run_of_query_ok hquery, hloaded]
      change (invocation.command.answer invocation.format env query).mapError Failure.bind = _
      rw [hanswer]
      rfl
  · rintro rfl
    obtain ⟨given, hquery⟩ := invocation.query.exists_gives readFile stdin
    cases given with
    | error reason =>
      rw [run_of_query_error hquery]
      exact .query hquery
    | ok query =>
      rw [run_of_query_ok hquery]
      cases hloaded : invocation.loaded complain readFile with
      | error f => exact .bindings hquery hloaded
      | ok env =>
        change invocation.Ends complain readFile stdin
          ((invocation.command.answer invocation.format env query).mapError Failure.bind)
        cases hanswer : invocation.command.answer invocation.format env query with
        | error e => exact .command hquery hloaded hanswer
        | ok text => exact .output hquery hloaded hanswer

end Invocation

/-! The log. -/

def Level.column (level : Level) : String :=
  String.ofList (List.replicate (5 - level.name.length) ' ') ++ level.name ++ " "

namespace Event

def line (event : Event) : String :=
  event.level.column ++ event.message ++
    String.join (event.fields.map fun field => " " ++ field.1 ++ "=" ++ field.2.render)

def isDebugLine (line : String) : Bool :=
  "DEBUG".toList.isPrefixOf line.toList

theorem log_eq_unlines (least : Level) (events : List Event) :
    log least events = unlines ((events.filter fun event => least.rank ≤ event.level.rank).map line) := by
  rw [log, unlines, List.map_map]
  rfl

theorem isDebugLine_line (event : Event) : isDebugLine event.line = (event.level == .debug) := by
  obtain ⟨text, htext⟩ : ∃ text, event.line = event.level.column ++ text := ⟨_, String.append_assoc⟩
  rw [isDebugLine, htext, String.toList_append]
  cases event.level <;> rfl

private theorem exists_count_of_mem_fields {event : Event} (h : Level.debug.rank ≤ event.level.rank) :
    ∀ field ∈ event.fields, Unbroken field.1 ∧ ∃ n, field.2 = .count n := by
  cases event <;> simp [level, Level.rank] at h <;> simp [fields] <;> decide

private theorem unbroken_join_iff {parts : List String} :
    Unbroken (String.join parts) ↔ ∀ part ∈ parts, Unbroken part := by
  simp [Unbroken, String.toList_join]

theorem unbroken_line {event : Event} (h : Level.debug.rank ≤ event.level.rank) : Unbroken event.line := by
  have hcolumn : Unbroken event.level.column := by cases event.level <;> decide
  have hmessage : Unbroken event.message := by cases event <;> simp only [message] <;> decide
  rw [line, unbroken_append, unbroken_append, unbroken_join_iff]
  refine ⟨⟨hcolumn, hmessage⟩, fun part hpart => ?_⟩
  obtain ⟨field, hfield, rfl⟩ := List.mem_map.mp hpart
  obtain ⟨hname, n, hcount⟩ := exists_count_of_mem_fields h field hfield
  rw [hcount]
  simp only [unbroken_append]
  exact ⟨⟨⟨by decide, hname⟩, by decide⟩, unbroken_toString_nat n⟩

/-- Without debugging the log has the same lines but those of debugging. -/
theorem lines_info_eq_filter (events : List Event) :
    (events.filter fun event => Level.info.rank ≤ event.level.rank).map line =
      ((events.filter fun event => Level.debug.rank ≤ event.level.rank).map line).filter (!isDebugLine ·) := by
  rw [List.filter_map, List.filter_filter]
  refine congrArg (List.map line) (List.filter_congr fun event _ => ?_)
  rw [Function.comp_apply, isDebugLine_line]
  cases event.level <;> decide

end Event

/-! What is shown. -/

private theorem getLast?_toList_eq_newline_iff {text : String} :
    text.toList.getLast? = some '\n' ↔ ∃ line, text = line ++ "\n" := by
  rw [List.getLast?_eq_some_iff]
  constructor
  · rintro ⟨cs, hcs⟩
    exact ⟨String.ofList cs, by rw [← String.toList_inj]; simpa using hcs⟩
  · rintro ⟨line, rfl⟩
    exact ⟨line.toList, by simp⟩

namespace Outcome

/-- What a run shows when the work ends with the result and the lines have been logged. An output is printed with
a line break at its end, which is added only if there is none. Of a failure nothing is printed; what is said of it
stands behind the lines, with its cause below. -/
inductive Shows (outcome : Outcome) (lines : List String) : Except Failure String → Prop
  | output {text : String} : outcome.exitCode = 0 →
    ((∃ line, text = line ++ "\n") → outcome.output = text) →
    ((¬ ∃ line, text = line ++ "\n") → outcome.output = text ++ "\n") →
    outcome.log = unlines lines → Shows outcome lines (.ok text)
  | failure {f : Failure} {words : String} {cause : Option String} : f.Says words cause →
    outcome.exitCode = 1 → outcome.output = "" →
    outcome.log = unlines (lines ++ ("Error: " ++ words) :: causeLines cause) → Shows outcome lines (.error f)

private theorem shows_finished (verbose : Bool) (work : Traced Failure String) :
    (finished verbose work).Shows
      ((work.events.filter fun event =>
        (if verbose then Level.debug else .info).rank ≤ event.level.rank).map Event.line) work.result := by
  obtain ⟨events, f | text⟩ := work
  · refine .failure f.says_message rfl rfl ?_
    rw [unlines_append, ← Event.log_eq_unlines, ← report_eq_unlines]
    rfl
  · refine .output rfl (fun h => ?_) (fun h => ?_) ?_
    · exact if_pos (getLast?_toList_eq_newline_iff.mpr h)
    · exact if_neg (mt getLast?_toList_eq_newline_iff.mp h)
    · rw [← Event.log_eq_unlines]
      exact String.append_empty

/-- An accepted command line is run stage by stage. The work has one end; what it is and what has been logged
on the way decide what is shown. Command lines that differ only in whether they ask for debugging show the same,
up to the lines of debugging in the log, and any command line may begin with asking for it. -/
theorem run_shows_end {environment : Option String} {args : List String} {invocation : Invocation}
    (h : Arguments.parse environment args = .ok invocation) (complain : Contents → String → String)
    (readFile : String → Except ReadError String) (stdin : Except ReadError String) :
    ∃ result lines, (∀ r, invocation.Ends complain readFile stdin r ↔ r = result) ∧
      lines = ((invocation.run complain readFile stdin).events.filter (·.level ≠ .trace)).map Event.line ∧
      (∀ line ∈ lines, Unbroken line) ∧
      (∀ args' invocation', Arguments.parse environment args' = .ok invocation' →
        { invocation' with verbose := invocation.verbose } = invocation →
        (run environment complain readFile stdin args').Shows
          (if invocation'.verbose then lines else lines.filter (!Event.isDebugLine ·)) result) ∧
      (invocation.verbose = false →
        Arguments.parse environment ("--verbose" :: args) = .ok { invocation with verbose := true }) := by
  let work := invocation.run complain readFile stdin
  have hlevel : work.events.filter (Level.debug.rank ≤ ·.level.rank) = work.events.filter (·.level ≠ .trace) :=
    List.filter_congr fun event _ => by cases event.level <;> rfl
  refine ⟨work.result, _, fun r => Invocation.ends_iff.trans eq_comm, rfl, ?_, ?_, Arguments.parse_verbose h⟩
  · intro line hline
    obtain ⟨event, hevent, rfl⟩ := List.mem_map.mp hline
    rw [← hlevel] at hevent
    exact Event.unbroken_line (by simpa using (List.mem_filter.mp hevent).2)
  · intro args' invocation' hargs' hsame
    rw [← hlevel]
    -- The work does not depend on what of it is logged.
    have hwork : invocation'.run complain readFile stdin = work := by
      change _ = invocation.run complain readFile stdin
      rw [← hsame]
      rfl
    have hrun : run environment complain readFile stdin args' = finished invocation'.verbose work := by
      rw [run, hargs', ← hwork]
    have hshows := shows_finished invocation'.verbose work
    rw [hrun]
    cases hverbose : invocation'.verbose with
    | true => simpa [hverbose] using hshows
    | false => simpa [hverbose, Event.lines_info_eq_filter] using hshows

/-- Of bindings that are no array and a parameter that is not bound the bindings are reported, with debugging and
without it. -/
theorem run_shows_failed_bindings :
    ∃ lines,
      (run none (fun _ _ => "invalid type: map, expected a sequence at line 1 column 0") (fun _ => .error .notFound)
        (.ok "") ["resolve", "-p", "{}", "a = :b"]).Shows (lines.filter (!Event.isDebugLine ·))
          (.error (.json "invalid type: map, expected a sequence at line 1 column 0")) ∧
      (run none (fun _ _ => "invalid type: map, expected a sequence at line 1 column 0") (fun _ => .error .notFound)
        (.ok "") ["--verbose", "resolve", "-p", "{}", "a = :b"]).Shows lines
          (.error (.json "invalid type: map, expected a sequence at line 1 column 0")) := by
  have haccepted : Arguments.parse none ["resolve", "-p", "{}", "a = :b"] =
      .ok ⟨.resolve, .text, false, .given "a = :b", ⟨none, none, some "{}"⟩⟩ := rfl
  obtain ⟨result, lines, hends, -, -, hshows, hverbose⟩ := run_shows_end haccepted
    (fun _ _ => "invalid type: map, expected a sequence at line 1 column 0") (fun _ => .error .notFound) (.ok "")
  have hresult : Except.error (.json "invalid type: map, expected a sequence at line 1 column 0") = result :=
    (hends _).mp (.bindings .given rfl)
  rw [← hresult] at hshows
  exact ⟨lines, hshows _ _ haccepted rfl, hshows _ _ (hverbose rfl) rfl⟩

end Outcome
end Placeholder
