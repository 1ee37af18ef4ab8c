import Placeholder.Command.Arguments
import Placeholder.Proofs.Results

/-!
Options of the command line. Reading options adds them to those given before, and an option that is not given
again may as well have been given before the others.
-/
namespace Placeholder.Arguments

def Apart (given front : Given) : Prop :=
  ∀ option ∈ front, given.lookup option.1 = none

theorem Apart.of_suffix {given given' front : Given} (h : Apart given' front) (hs : given <:+ given') :
    Apart given front := by
  obtain ⟨later, rfl⟩ := hs
  intro option hmem
  have hnone := h option hmem
  rw [List.lookup_append] at hnone
  exact (Option.or_eq_none_iff.mp hnone).2

/-- The reader adds to what has been given, and adds the same when other options stand in front. -/
structure Accumulates {α : Type} (read : Given → Except Stop (Given × α)) : Prop where
  suffix : ∀ {given given' : Given} {a : α}, read given = .ok (given', a) → given <:+ given'
  again : ∀ {given given' front : Given} {a : α}, read given = .ok (given', a) → Apart given' front →
    read (given ++ front) = .ok (given' ++ front, a)

namespace Accumulates

variable {α β : Type}

theorem pure (a : α) : Accumulates fun given => .ok (given, a) where
  suffix h := by
    cases h
    exact List.suffix_rfl
  again h _ := by
    cases h
    rfl

theorem error (stop : Stop) : Accumulates (fun _ => .error stop : Given → Except Stop (Given × α)) where
  suffix h := by cases h
  again h _ := by cases h

theorem bind {read : Given → Except Stop (Given × α)} {next : α → Given → Except Stop (Given × β)}
    (h : Accumulates read) (hnext : ∀ a, Accumulates (next a)) :
    Accumulates fun given => read given >>= fun r => next r.2 r.1 where
  suffix hread := by
    obtain ⟨r, hr, hread⟩ := bind_eq_ok_iff.mp hread
    exact (h.suffix hr).trans ((hnext r.2).suffix hread)
  again hread hfront := by
    obtain ⟨r, hr, hread⟩ := bind_eq_ok_iff.mp hread
    have hagain := h.again hr (hfront.of_suffix ((hnext r.2).suffix hread))
    exact bind_eq_ok_iff.mpr ⟨_, hagain, (hnext r.2).again hread hfront⟩

end Accumulates

/-- Noting an option puts it before the others. -/
theorem note_eq_ok_iff {given given' : Given} {flag : Flag} {value : String} :
    note given flag value = .ok given' ↔
      flag ≠ .version ∧ given.lookup flag = none ∧ flag.admits value ∧ given' = (flag, value) :: given := by
  unfold note
  by_cases hversion : flag = .version
  · simp [hversion]
  · cases hlookup : given.lookup flag <;> cases hadmits : flag.admits value <;>
      simp [hversion, eq_comm (a := given')]

private theorem accumulates_note (flag : Flag) (value : String) :
    Accumulates fun given => (·, ()) <$> note given flag value where
  suffix h := by
    obtain ⟨noted, hnoted, heq⟩ := map_eq_ok_iff.mp h
    cases heq
    rw [(note_eq_ok_iff.mp hnoted).2.2.2]
    exact List.suffix_cons _ _
  again {given given' front a} h hfront := by
    obtain ⟨noted, hnoted, heq⟩ := map_eq_ok_iff.mp h
    cases heq
    obtain ⟨hversion, hlookup, hadmits, rfl⟩ := note_eq_ok_iff.mp hnoted
    have hnone : front.lookup flag = none := by
      refine List.lookup_eq_none_iff.mpr fun option hmem => ?_
      rw [bne_iff_ne]
      rintro rfl
      have hgiven := hfront option hmem
      simp at hgiven
    have hagain : note (given ++ front) flag value = .ok ((flag, value) :: (given ++ front)) :=
      note_eq_ok_iff.mpr ⟨hversion, by rw [List.lookup_append, hlookup, hnone]; rfl, hadmits, rfl⟩
    rw [hagain]
    rfl

/-- Noting an option is as good a step as any. -/
theorem Accumulates.note_bind {α : Type} {next : Given → Except Stop (Given × α)} (h : Accumulates next) (flag : Flag)
    (value : String) : Accumulates fun given => note given flag value >>= next := by
  have hbind := (accumulates_note flag value).bind fun _ => h
  have heq : (fun given => ((·, ()) <$> note given flag value) >>= fun r => next r.1) =
      fun given => note given flag value >>= next := by
    funext given
    cases note given flag value <;> rfl
  rwa [heq] at hbind

private theorem letters_value {allowed : Flag → Bool} {c d : Char} {ds : List Char} {flag : Flag}
    (hflag : (Flag.ofLetter? c).filter allowed = some flag) (hvalue : flag.takesValue) (given : Given) :
    letters allowed given (c :: d :: ds) =
      note given flag (String.ofList (if d = '=' then ds else d :: ds)) >>= fun given => .ok (given, none) := by
  simp only [letters, hflag, hvalue, if_true]
  split
  · next h => cases h
  · next h =>
    cases h
    rfl
  · next h =>
    rw [if_neg fun hd => h ds (by rw [hd])]
    rfl

private theorem accumulates_letters (allowed : Flag → Bool) (cs : List Char) :
    Accumulates fun given => letters allowed given cs := by
  induction cs with
  | nil => exact .pure none
  | cons c cs ih =>
    cases hflag : (Flag.ofLetter? c).filter allowed with
    | none =>
      simp only [letters, hflag]
      exact .error .misuse
    | some flag =>
      cases hvalue : flag.takesValue with
      | false =>
        simp only [letters, hflag, hvalue, Bool.false_eq_true, if_false]
        exact ih.note_bind flag ""
      | true =>
        cases cs with
        | nil =>
          simp only [letters, hflag, hvalue, if_true]
          exact .pure (some flag)
        | cons d ds =>
          simp only [letters_value hflag hvalue]
          exact (Accumulates.pure none).note_bind flag _

private theorem accumulates_word (allowed : Flag → Bool) (cs : List Char) :
    Accumulates fun given => word allowed given cs := by
  simp only [word]
  cases (Flag.ofName? (String.ofList (cs.takeWhile (· != '=')))).filter allowed with
  | none => exact .error .misuse
  | some flag =>
    cases cs.dropWhile (· != '=') with
    | nil =>
      cases hvalue : flag.takesValue with
      | false =>
        simp only [hvalue, Bool.false_eq_true, if_false]
        exact (Accumulates.pure none).note_bind flag ""
      | true =>
        simp only [hvalue, if_true]
        exact .pure (some flag)
    | cons c value =>
      cases hvalue : flag.takesValue with
      | false =>
        simp only [hvalue, Bool.false_eq_true, if_false]
        exact .error .misuse
      | true =>
        simp only [hvalue, if_true]
        exact (Accumulates.pure none).note_bind flag _

private theorem accumulates_argument (allowed : Flag → Bool) (arg : String) :
    Accumulates fun given => argument allowed given arg := by
  unfold argument
  split
  · exact accumulates_word allowed _
  · exact accumulates_letters allowed _

/-- Going on behind an argument, whose last option may await its value. -/
def optionsBehind (allowed : Flag → Bool) (rest : List String) (awaiting : Option Flag) (given : Given) :
    Except Stop (Given × List String) :=
  match awaiting, rest with
  | none, rest => options allowed given rest
  | some _, [] => .error .misuse
  | some flag, value :: rest =>
    if isDashed value then .error .misuse else note given flag value >>= fun given => options allowed given rest

private theorem options_cons_of_dashed {arg : String} (h : isDashed arg && arg != "--") (allowed : Flag → Bool)
    (given : Given) (rest : List String) :
    options allowed given (arg :: rest) =
      argument allowed given arg >>= fun r => optionsBehind allowed rest r.2 r.1 := by
  rw [options, if_pos h]
  cases argument allowed given arg with
  | error stop => rfl
  | ok r =>
    obtain ⟨given, _ | flag⟩ := r
    · rfl
    · cases rest with
      | nil => rfl
      | cons value rest =>
        change (if isDashed value then _ else _) = if isDashed value then _ else _
        cases note given flag value <;> rfl

theorem accumulates_options (allowed : Flag → Bool) (args : List String) :
    Accumulates fun given => options allowed given args := by
  -- What has been given grows from argument to argument, so the reader of the rest is taken for all of it.
  match args with
  | [] => exact .pure []
  | arg :: rest =>
    by_cases h : isDashed arg && arg != "--"
    · simp only [options_cons_of_dashed h]
      refine (accumulates_argument allowed arg).bind fun awaiting => ?_
      match awaiting, rest with
      | none, rest => exact accumulates_options allowed rest
      | some _, [] => exact .error .misuse
      | some flag, value :: rest =>
        change Accumulates fun given => if isDashed value then .error .misuse else note given flag value >>= _
        split
        · exact .error .misuse
        · exact (accumulates_options allowed rest).note_bind flag value
    · simp only [options, if_neg h]
      exact .pure (arg :: rest)

/-- An option by name, ahead of all others. -/
theorem options_verbose (args : List String) :
    options beforeCommand [] ("--verbose" :: args) = options beforeCommand [(.verbose, "")] args := by
  rw [options_cons_of_dashed (by decide)]
  rfl

private theorem format?_append {environment : Option String} {given : Given} {flag : Flag} {value : String}
    (h : flag ≠ .format) : format? environment (given ++ [(flag, value)]) = format? environment given := by
  have hlookup : (given ++ [(flag, value)]).lookup .format = given.lookup .format := by
    rw [List.lookup_append]
    simp [List.lookup_cons, beq_eq_false_iff_ne.mpr h.symm]
  unfold format?
  rw [hlookup]

/-- What an accepted command line is made of: options, the name of a command, options and at most one query. -/
structure Accepted (environment : Option String) (args : List String) (outer : Given) (command : Command)
    (inner : Given) (query : Option String) (invocation : Invocation) : Prop where
  args_eq : ∃ name rest, options beforeCommand [] args = .ok (outer, name :: rest) ∧
    Command.ofName? name = some command ∧ optionsAndQuery (afterCommand command) rest = .ok (inner, query)
  one_source : ¬ (query.isSome && (inner.lookup .file).isSome)
  formats : ∃ innerFormat outerFormat, format? environment inner = .ok innerFormat ∧
    format? environment outer = .ok outerFormat ∧
    invocation.format = (innerFormat <|> outerFormat <|> environment.bind Format.ofName?).getD .text
  command_eq : invocation.command = command
  verbose_eq : invocation.verbose = ((inner.lookup .verbose).isSome || (outer.lookup .verbose).isSome)
  query_eq : invocation.query = .choose query (inner.lookup .file)
  bindings_eq : invocation.bindings = ⟨inner.lookup .bindings, inner.lookup .named, inner.lookup .positional⟩

theorem parse_eq_ok_iff {environment : Option String} {args : List String} {invocation : Invocation} :
    parse environment args = .ok invocation ↔
      ∃ outer command inner query, Accepted environment args outer command inner query invocation := by
  unfold parse
  simp only [bind_eq_ok_iff]
  constructor
  · rintro ⟨⟨outer, rest⟩, houter, h⟩
    cases rest with
    | nil => cases h
    | cons name rest =>
      cases hname : Command.ofName? name with
      | none =>
        simp only [hname] at h
        cases h
      | some command =>
        simp only [hname, bind_eq_ok_iff] at h
        obtain ⟨⟨inner, query⟩, hinner, h⟩ := h
        split at h
        · cases h
        · next hone =>
          simp only [bind_eq_ok_iff] at h
          obtain ⟨innerFormat, hinnerFormat, outerFormat, houterFormat, h⟩ := h
          cases h
          exact ⟨outer, command, inner, query, ⟨name, rest, houter, hname, hinner⟩, hone,
            ⟨innerFormat, outerFormat, hinnerFormat, houterFormat, rfl⟩, rfl, rfl, rfl, rfl⟩
  · rintro ⟨outer, command, inner, query, h⟩
    obtain ⟨name, rest, houter, hname, hinner⟩ := h.args_eq
    obtain ⟨innerFormat, outerFormat, hinnerFormat, houterFormat, hformat⟩ := h.formats
    refine ⟨_, houter, ?_⟩
    simp only [hname, bind_eq_ok_iff]
    refine ⟨_, hinner, ?_⟩
    rw [if_neg h.one_source, hinnerFormat, houterFormat]
    obtain ⟨c, f, v, q, b⟩ := invocation
    obtain ⟨rfl⟩ := h.command_eq
    obtain ⟨rfl⟩ := h.verbose_eq
    obtain ⟨rfl⟩ := h.query_eq
    obtain ⟨rfl⟩ := h.bindings_eq
    obtain ⟨rfl⟩ := hformat
    rfl

/-- A command line that is accepted and does not ask for debugging may begin with that. -/
theorem parse_verbose {environment : Option String} {args : List String} {invocation : Invocation}
    (h : parse environment args = .ok invocation) (hquiet : invocation.verbose = false) :
    parse environment ("--verbose" :: args) = .ok { invocation with verbose := true } := by
  obtain ⟨outer, command, inner, query, h⟩ := parse_eq_ok_iff.mp h
  obtain ⟨name, rest, houter, hname, hinner⟩ := h.args_eq
  obtain ⟨innerFormat, outerFormat, hinnerFormat, houterFormat, hformat⟩ := h.formats
  have hnone : outer.lookup .verbose = none := by
    have hverbose := h.verbose_eq
    rw [hquiet] at hverbose
    simpa using (Bool.or_eq_false_iff.mp hverbose.symm).2
  have hapart : Apart outer [(.verbose, "")] := by
    intro option hmem
    rw [List.mem_singleton.mp hmem]
    exact hnone
  -- The option stands in front of those before the command, and is none of them.
  have hagain : options beforeCommand [(.verbose, "")] args = .ok (outer ++ [(.verbose, "")], name :: rest) :=
    (accumulates_options beforeCommand args).again houter hapart
  refine parse_eq_ok_iff.mpr ⟨outer ++ [(.verbose, "")], command, inner, query, ?_, h.one_source, ?_, h.command_eq, ?_,
    h.query_eq, h.bindings_eq⟩
  · exact ⟨name, rest, by rw [options_verbose, hagain], hname, hinner⟩
  · exact ⟨innerFormat, outerFormat, hinnerFormat, by rw [format?_append (by decide), houterFormat], hformat⟩
  · simp [List.lookup_append, hnone]

end Placeholder.Arguments
