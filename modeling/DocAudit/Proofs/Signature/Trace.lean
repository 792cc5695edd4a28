import DocAudit.Proofs.Machine.Run
import DocAudit.Proofs.Signature.Steps

namespace DocAudit.Signature

/-!
# What the moves of a reader tell

The moves of a reader are a path from its start to the phase in which it stands.
They come in rounds, one for each parameter: its type if it has one, its name, its
default if it has one, and its end. Behind the last round stand the moves of the
parameter that is open, as far as its phase says. The main statement is
`run_retraced`.
-/

/-- A move of a reader. -/
abbrev Move :=
  Machine.Move Phase Event

/-- The moves by which one parameter was read. -/
structure Round (moves : List Move) : Prop where
  typed : Machine.countOf .gotType moves ≤ 1
  named : Machine.countOf .gotName moves = 1
  defaulted : Machine.countOf .gotEquals moves ≤ 1
  ended : Machine.countOf .gotEnd moves = 1
  endsLast : moves.getLast?.map Machine.Move.event = some .gotEnd

/-- The moves of a parameter that is open, in a phase, with its default open or not. -/
inductive Opening :
    Phase →
    Bool →
    List Move →
    Prop where
  | start :
      Opening .start false []
  | typed :
      Opening .awaitingName false [⟨.gotType, .start, .awaitingName⟩]
  | named
      {phase : Phase}
      {moves : List Move} :
      Opening phase false moves →
      phase ≠ .awaitingDefault →
      Opening .awaitingDefault false (moves ++ [⟨.gotName, phase, .awaitingDefault⟩])
  | defaulted
      {moves : List Move} :
      Opening .awaitingDefault false moves →
      Opening .awaitingDefault true
        (moves ++ [⟨.gotEquals, .awaitingDefault, .awaitingDefault⟩])

/-- Back at the start no parameter is open. -/
theorem Opening.eq_nil
    {inDefault : Bool}
    {moves : List Move}
    (opening : Opening .start inDefault moves) :
    moves = [] := by
  cases opening
  rfl

/-- An open parameter has a name when its default may follow, and no end. -/
theorem Opening.counts
    {phase : Phase}
    {inDefault : Bool}
    {moves : List Move}
    (opening : Opening phase inDefault moves) :
    Machine.countOf .gotType moves ≤ 1 ∧
      Machine.countOf .gotName moves = (if phase = .awaitingDefault then 1 else 0) ∧
        Machine.countOf .gotEquals moves = (if inDefault then 1 else 0) ∧
          Machine.countOf .gotEnd moves = 0 := by
  induction opening with
  | start => decide
  | typed => decide
  | named _ unnamed inductionHypothesis =>
      obtain ⟨typed, named, defaulted, ended⟩ := inductionHypothesis
      simp only [Machine.countOf_append, named, defaulted, ended, if_neg unnamed]
      exact ⟨typed, rfl, rfl, rfl⟩
  | defaulted _ inductionHypothesis =>
      obtain ⟨typed, named, defaulted, ended⟩ := inductionHypothesis
      simp only [Machine.countOf_append, named, defaulted, ended]
      exact ⟨typed, rfl, rfl, rfl⟩

/-- The end of an open parameter completes its round. -/
theorem Opening.round
    {inDefault : Bool}
    {moves : List Move}
    (opening : Opening .awaitingDefault inDefault moves) :
    Round (moves ++ [⟨.gotEnd, .awaitingDefault, .start⟩]) := by
  obtain ⟨typed, named, defaulted, ended⟩ := opening.counts
  constructor
  · rw [Machine.countOf_append]
    exact typed
  · rw [Machine.countOf_append, named]
    rfl
  · rw [Machine.countOf_append, defaulted]
    cases inDefault <;> decide
  · rw [Machine.countOf_append, ended]
    rfl
  · simp

namespace Reader

/-- The moves of a reader are a path, and come in rounds. -/
structure Traced (reader : Reader) : Prop where
  path : Machine.Path table .start reader.moves reader.state
  rounds :
    ∃ (rounds : List (List Move)) (opening : List Move),
      reader.moves = rounds.flatten ++ opening ∧
        rounds.length = reader.contents.parameters.length ∧
          (∀ round ∈ rounds, Round round) ∧
            Opening reader.state reader.contents.draft.inDefault opening

theorem traced_start : Traced start where
  path := .nil
  rounds := ⟨[], [], rfl, rfl, by simp, .start⟩

variable
  {config : Config}
  {reader next : Reader}
  {token : Token}

/-- An event adds a move to the open parameter, or completes its round. -/
theorem Traced.fires
    (traced : Traced reader)
    (fires : Fires config reader next) :
    Traced next := by
  obtain ⟨path, rounds, opening, split, oneEach, areRounds, isOpening⟩ := traced
  rcases fires with @⟨event, target, contents, lookup, changes⟩
  refine ⟨path.concat lookup, ?_⟩
  have phases := of_get?_table lookup
  cases changes with
  | opensType token closed =>
      obtain ⟨atStart, rfl⟩ := phases
      rw [atStart, closed] at isOpening
      cases isOpening
      refine ⟨rounds, [⟨.gotType, .start, .awaitingName⟩], ?_, oneEach, areRounds, ?_⟩
      · simp [split, atStart]
      · change Opening .awaitingName reader.contents.draft.inDefault _
        rw [closed]
        exact .typed
  | names token closed =>
      obtain ⟨unnamed, rfl⟩ := phases
      rw [closed] at isOpening
      refine
        ⟨rounds, opening ++ [⟨.gotName, reader.state, .awaitingDefault⟩], ?_, oneEach,
          areRounds, ?_⟩
      · simp [split]
      · change Opening .awaitingDefault reader.contents.draft.inDefault _
        rw [closed]
        exact isOpening.named unnamed
  | opensDefault closed =>
      obtain ⟨isNamed, rfl⟩ := phases
      rw [isNamed, closed] at isOpening
      refine
        ⟨rounds, opening ++ [⟨.gotEquals, .awaitingDefault, .awaitingDefault⟩], ?_,
          oneEach, areRounds, ?_⟩
      · simp [split, isNamed]
      · exact isOpening.defaulted
  | ends made =>
      obtain ⟨isNamed, rfl⟩ := phases
      rw [isNamed] at isOpening
      refine
        ⟨rounds ++ [opening ++ [⟨.gotEnd, .awaitingDefault, .start⟩]], [], ?_, ?_, ?_,
          .start⟩
      · simp [split, isNamed]
      · simp [oneEach]
      · intro round member
        rcases List.mem_append.mp member with earlier | isLast
        · exact areRounds round earlier
        · rw [List.mem_singleton.mp isLast]
          exact isOpening.round

theorem Traced.update
    {change : Contents → Contents}
    (traced : Traced reader)
    (sameDefault :
      (change reader.contents).draft.inDefault = reader.contents.draft.inDefault)
    (sameParameters :
      (change reader.contents).parameters = reader.contents.parameters) :
    Traced (reader.update change) := by
  obtain ⟨path, rounds, opening, split, oneEach, areRounds, isOpening⟩ := traced
  refine ⟨path, rounds, opening, split, ?_, areRounds, ?_⟩
  · exact oneEach.trans (congrArg List.length sameParameters.symm)
  · rw [← sameDefault] at isOpening
    exact isOpening

/-- A token that is appended opens no default. -/
theorem inDefault_extend
    (contents : Contents)
    (token : Token) :
    (contents.extend token).draft.inDefault = contents.draft.inDefault := by
  rcases contents with ⟨nesting, ⟨typeTokens?, name, declaredType, optional, tokens?⟩, _, _⟩
  cases typeTokens? <;> cases tokens? <;> rfl

/-- Every token leaves the reader traced. -/
theorem Traced.step
    (traced : Traced reader)
    (steps : Reader.step config reader token = .ok next) :
    Traced next := by
  unfold Reader.step at steps
  split at steps
  · have noted : Traced (reader.update fun contents => contents.note token) :=
      traced.update rfl rfl
    rcases fires_of_take steps with fires | rfl
    · exact noted.fires fires
    · exact noted.update (inDefault_extend _ token) rfl
  · cases steps
    exact traced

end Reader

/-- The lines that report moves. -/
def lines (moves : List Move) : List String :=
  moves.map (Machine.Move.line Event.name Phase.name)

/-- What the moves of a run tell that has read some parameters. -/
structure Run.Read
    (run : Run)
    (parameters : List Parameter) : Prop where
  atStart : run.state = .start
  named : Machine.countOf .gotName run.moves = parameters.length
  ended : Machine.countOf .gotEnd run.moves = parameters.length
  rounds :
    ∃ rounds : List (List Move),
      run.moves = rounds.flatten ∧
        rounds.length = parameters.length ∧ ∀ round ∈ rounds, Round round
  log : run.log = lines run.moves ++ [s!"Parsed {parameters.length} parameters"]

/-- What the moves of a run tell that a fault has ended. -/
structure Run.Refused
    (run : Run)
    (fault : Fault) : Prop where
  log : run.log = lines run.moves
  silent : ∀ line ∈ run.log, ¬ "Parsed".toList <+: line.toList
  unexpected :
    ∀ token phase,
      fault = .unreadable (.unexpectedToken token phase) → phase = run.state.name
  wrongDefault :
    ∀ token text null,
      fault = .unreadable (.optionalDefault token text null) →
        run.state = .awaitingDefault ∧
          Machine.countOf .gotName run.moves =
            Machine.countOf .gotEnd run.moves + 1

theorem log_of_read
    (parameters : List Parameter)
    (phase : Phase)
    (moves : List Move) :
    Run.log ⟨.ok parameters, phase, moves⟩ =
      lines moves ++ [s!"Parsed {parameters.length} parameters"] :=
  Machine.Run.log_of_ok "parameters" parameters phase moves

/-- The names of events begin alike. -/
theorem Event.exists_name (event : Event) :
    ∃ rest, event.name.toList = 'G' :: rest := by
  cases event <;> exact ⟨_, rfl⟩

theorem not_parsed_of_mem_lines
    {moves : List Move}
    {line : String}
    (member : line ∈ lines moves) :
    ¬ "Parsed".toList <+: line.toList :=
  Machine.Run.not_parsed_of_mem_lines Event.exists_name member

section Runs

variable
  {config : Config}
  {reader last : Reader}
  {token : Token}
  {fault : Fault}

/-- A reader finishes at its start. -/
theorem state_of_finish
    (finishes : Reader.finish config reader = .ok last) :
    last.state = .start := by
  unfold Reader.finish at finishes
  split at finishes
  · rename_i atStart
    cases finishes
    exact atStart
  · obtain ⟨target, contents, lookup, _, rfl⟩ := Machine.Situation.fire_eq_ok finishes
    exact (of_get?_table lookup).2

theorem Reader.Traced.finish
    (traced : reader.Traced)
    (finishes : Reader.finish config reader = .ok last) :
    last.Traced := by
  unfold Reader.finish at finishes
  split at finishes
  · cases finishes
    exact traced
  · exact traced.fires (fires_of_close finishes)

/-- A reader that cannot read a token, or cannot finish, halts in its phase. -/
theorem exists_halts_of_step
    (fails : Reader.step config reader token = .error fault) :
    ∃ noted : Reader, noted.state = reader.state ∧ Halts config noted fault := by
  unfold Reader.step at fails
  split at fails
  · exact
      ⟨reader.update fun contents => contents.note token, rfl, halts_of_take fails⟩
  · cases fails

theorem halts_of_finish
    (fails : Reader.finish config reader = .error fault) :
    Halts config reader fault := by
  unfold Reader.finish at fails
  split at fails
  · cases fails
  · exact halts_of_close fails

/-- A run reads its list to the end, or a fault halts it in some phase. -/
theorem run_cases
    (config : Config)
    (tokens : List Token) :
    (∃ last : Reader,
        last.Traced ∧
          last.state = .start ∧
            run config tokens =
              ⟨.ok last.contents.parameters, last.state, last.moves⟩) ∨
      ∃ (reached noted : Reader) (fault : Fault),
        reached.Traced ∧
          noted.state = reached.state ∧
            Halts config noted fault ∧
              run config tokens = ⟨.error fault, reached.state, reached.moves⟩ := by
  have ends :
      Machine.Run.Ends (Reader.step config) (Reader.finish config) Contents.parameters
        Reader.start tokens (run config tokens) :=
    Machine.Run.ends_ofScan _ _ _ _ _
  have traced {front : List Token} {reached : Reader}
      (reads : Machine.Scan.run (Reader.step config) .start front = .finished reached) :
      reached.Traced :=
    Machine.Scan.holds_of_run Reader.Traced.step Reader.traced_start reads
  generalize run config tokens = result at ends ⊢
  cases ends with
  | closed reads finishes =>
      exact .inl ⟨_, (traced reads).finish finishes, state_of_finish finishes, rfl⟩
  | stopped _ reads fails =>
      obtain ⟨noted, sameState, halts⟩ := exists_halts_of_step fails
      exact .inr ⟨_, noted, _, traced reads, sameState, halts, rfl⟩
  | unclosed reads fails =>
      exact .inr ⟨_, _, _, traced reads, rfl, halts_of_finish fails, rfl⟩

/-- A traced reader that is back at its start has read in whole rounds. -/
theorem Reader.Traced.read
    (traced : last.Traced)
    (atStart : last.state = .start) :
    Run.Read ⟨.ok last.contents.parameters, last.state, last.moves⟩
      last.contents.parameters := by
  obtain ⟨_, rounds, opening, split, oneEach, areRounds, isOpening⟩ := traced
  rw [atStart] at isOpening
  rw [isOpening.eq_nil, List.append_nil] at split
  exact
    { atStart
      named := by
        rw [← oneEach, split]
        exact Machine.countOf_flatten fun round member => (areRounds round member).named
      ended := by
        rw [← oneEach, split]
        exact Machine.countOf_flatten fun round member => (areRounds round member).ended
      rounds := ⟨rounds, split, oneEach, areRounds⟩
      log := log_of_read _ _ _ }

/-- Where a wrong default halts a reader, one name has no end yet. -/
theorem Reader.Traced.named_eq
    (traced : reader.Traced)
    (isNamed : reader.state = .awaitingDefault) :
    Machine.countOf .gotName reader.moves = Machine.countOf .gotEnd reader.moves + 1 := by
  obtain ⟨_, rounds, opening, split, _, areRounds, isOpening⟩ := traced
  rw [isNamed] at isOpening
  obtain ⟨_, named, _, ended⟩ := isOpening.counts
  have namedInRounds : Machine.countOf .gotName rounds.flatten = rounds.length :=
    Machine.countOf_flatten fun round member => (areRounds round member).named
  have endedInRounds : Machine.countOf .gotEnd rounds.flatten = rounds.length :=
    Machine.countOf_flatten fun round member => (areRounds round member).ended
  rw [split, Machine.countOf_append, Machine.countOf_append, namedInRounds, endedInRounds,
    named, ended]
  rfl

/-- A reader that halts is refused in its phase. -/
theorem Reader.Traced.refused
    {reached noted : Reader}
    (traced : reached.Traced)
    (sameState : noted.state = reached.state)
    (halts : Halts config noted fault) :
    Run.Refused ⟨.error fault, reached.state, reached.moves⟩ fault := by
  have log :
      Run.log ⟨.error fault, reached.state, reached.moves⟩ = lines reached.moves :=
    List.append_nil _
  refine { log := log, silent := ?_, unexpected := ?_, wrongDefault := ?_ }
  · intro line member
    rw [log] at member
    exact not_parsed_of_mem_lines member
  · intro token phase isFault
    cases halts with
    | unexpected refused =>
        obtain ⟨_, _, blames⟩ := Fault.blaming_eq_unreadable_iff.mp isFault
        cases blames
        exact congrArg Phase.name sameState
    | wrongDefault _ _ =>
        obtain ⟨_, _, blames⟩ := Fault.blaming_eq_unreadable_iff.mp isFault
        cases blames
  · intro token text null isFault
    cases halts with
    | unexpected refused =>
        obtain ⟨_, _, blames⟩ := Fault.blaming_eq_unreadable_iff.mp isFault
        cases blames
    | wrongDefault isNamed _ =>
        have reachedNamed := sameState.symm.trans isNamed
        exact ⟨reachedNamed, traced.named_eq reachedNamed⟩

/--
The moves of a run are a path in the table from the start to the phase in which the
run ends. A run that reads its list ends at the start, with one round of moves for
each parameter, and then reports their number. A run that does not read its list
reports its moves alone; a token that is not expected is refused in the phase in
which the run ends, and a wrong default where the parameter has its name and not
its end.
-/
theorem run_retraced
    (config : Config)
    (tokens : List Token) :
    Machine.Path table .start (run config tokens).moves (run config tokens).state ∧
      (∀ parameters,
          (run config tokens).outcome = .ok parameters →
            (run config tokens).Read parameters) ∧
        ∀ fault,
          (run config tokens).outcome = .error fault →
            (run config tokens).Refused fault := by
  rcases run_cases config tokens with
    ⟨last, traced, atStart, ran⟩ | ⟨reached, noted, fault, traced, sameState, halts, ran⟩
  · rw [ran]
    refine ⟨traced.path, ?_, ?_⟩
    · intro parameters answered
      cases answered
      exact traced.read atStart
    · intro fault answered
      cases answered
  · rw [ran]
    refine ⟨traced.path, ?_, ?_⟩
    · intro parameters answered
      cases answered
    · intro other answered
      cases answered
      exact traced.refused sameState halts

/-- A wrong default is refused while its parameter is open. -/
example :
    (run Config.standard
        [⟨.typeWord, "Optional", ⟨1, 1⟩⟩, ⟨.parameterName, "$a", ⟨1, 10⟩⟩,
          ⟨.equals, "=", ⟨1, 13⟩⟩, ⟨.other, "1", ⟨1, 15⟩⟩, ⟨.comma, ",", ⟨1, 16⟩⟩]).log =
      ["GOT_TYPE: start -> awaiting_name", "GOT_NAME: awaiting_name -> awaiting_default",
        "GOT_EQUALS: awaiting_default -> awaiting_default"] :=
  rfl

end Runs

end DocAudit.Signature
