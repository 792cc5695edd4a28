import DocAudit.Proofs.DocBlock.Safety
import DocAudit.Proofs.DocBlock.Worker

namespace DocAudit.DocBlock

/-!
# What a worker can rely on

A worker looks into its fields without asking what is there: into the open entry when
an option header comes, and into the last comment when it refuses a line. It need not
ask either. Between two comments it holds what a safe reader holds, and it notes a
comment before it reads it, so there is an entry for every option and a comment to
blame for every line that is refused. The main statement is `docs_blame_comment`.
-/

namespace Workspace

theorem last?_openEntry
    (workspace : Workspace)
    (name : String)
    (comment : Token) :
    (workspace.openEntry name comment).state.last? = workspace.last? := by
  rw [openEntry, closeEntry_closeOption]
  cases workspace.begin.toContents.closeOption.closeEntry <;> rfl

theorem last?_openOption
    (workspace : Workspace)
    (hash valueType name : String)
    (comment : Token) :
    (workspace.openOption hash valueType name comment).state.last? = workspace.last? := by
  rw [openOption]
  cases workspace.toContents.openOption hash valueType name comment <;> rfl

/-- No line overwrites the last comment. -/
theorem last?_accept
    (workspace : Workspace)
    (line : CommentLine) :
    (workspace.accept line).state.last? = workspace.last? := by
  rw [accept]
  cases line.content with
  | header name => exact last?_openEntry workspace name line.comment
  | optionHeader hash valueType name =>
      exact last?_openOption workspace hash valueType name line.comment
  | separator => rfl
  | description => rfl

end Workspace

namespace Worker

variable
  {config : Config}
  {reader : Reader}
  {worker halted : Worker}
  {comment : Token}
  {comments : List Token}
  {line : CommentLine}
  {fault : Fault}

/-- The comment that a worker was given is its last one, whether it could read it or not. -/
theorem last?_step
    (config : Config)
    (worker : Worker)
    (comment : Token) :
    (step config worker comment).state.contents.last? = some comment := by
  rw [step, read]
  split
  · rfl
  · rfl
  -- Only a line that is taken changes more, and it leaves the noted comment alone.
  · exact
      Machine.Situation.fireInPlace_keeps _ _ _ _ Workspace.last?
        (Workspace.last?_accept _ _)

/-- Where the event of a line may not happen, the comment of the line is blamed for it. -/
theorem step_of_unexpected
    (reads : CommentLine.read config worker.contents.started comment = .ok (some line))
    (unexpected :
      table.get? (worker.state, worker.contents.toContents.eventOf line) = none) :
    step config worker comment =
      .stopped
        (worker.update fun workspace => workspace.note comment)
        (.unreadable (.unexpectedComment comment worker.state.name)) := by
  simp only [step, read, Machine.Situation.update, Workspace.note, reads, take,
    Machine.Situation.fireInPlace, unexpected, Fault.blaming]

/-- The reader that holds what a worker holds. -/
def asReader (worker : Worker) : Reader where
  state := worker.state
  moves := worker.moves
  contents := worker.contents.toContents

theorem Follows.asReader_eq (follows : Follows reader worker) : worker.asReader = reader := by
  rw [asReader, follows.state, follows.moves, follows.contents.contents_eq]

/-- Comments are read alike. -/
theorem agrees_run
    (config : Config)
    (comments : List Token) :
    Agrees
      (Machine.Scan.run (Reader.step config) .start comments)
      (Machine.Scan.sweep (step config) start comments) := by
  rw [Machine.Scan.run_eq_sweep]
  exact
    Machine.Scan.agrees_sweep
      (fun comment follows => follows.agrees_step comment)
      follows_start
      comments

/-- A worker that has read comments follows a reader that has read them. -/
theorem exists_follows_of_sweep
    (reads : Machine.Scan.sweep (step config) start comments = .finished worker) :
    ∃ reader,
      Machine.Scan.run (Reader.step config) .start comments = .finished reader ∧
        Follows reader worker := by
  have agrees := agrees_run config comments
  rw [reads] at agrees
  exact Machine.Scan.exists_of_agrees_with_finished agrees

/-- A comment that stops a worker stops the reader that it follows, by the same fault. -/
theorem Follows.step_eq_error
    (follows : Follows reader worker)
    (stops : step config worker comment = .stopped halted fault) :
    Reader.step config reader comment = .error fault := by
  have agrees :
      Agrees
        (.attempt reader (Reader.step config reader comment))
        (step config worker comment) :=
    follows.agrees_step comment
  -- Where the reader reads on, so does the worker, which was stopped.
  cases answer : Reader.step config reader comment with
  | ok next =>
      rw [answer] at agrees
      obtain ⟨other, steps, _⟩ := Machine.Scan.exists_of_agrees_finished agrees
      cases stops.symm.trans steps
  | error other =>
      rw [answer] at agrees
      obtain ⟨there, stopsThere, _⟩ := Machine.Scan.exists_of_agrees_stopped agrees
      cases stops.symm.trans stopsThere
      rfl

/-- What holds of a worker that reads on, whatever it has read. -/
structure Safe
    (config : Config)
    (worker : Worker) : Prop where
  /-- It holds what a safe reader holds. -/
  asReader : Reader.Safe config worker.asReader
  /-- Its flag is set from the first header on, and not in front of it. -/
  begun : worker.state = .start ↔ worker.contents.started = false
  /-- A comment that it stops at is its last one, and is blamed in its phase. -/
  blames :
    ∀ comment halted fault,
      step config worker comment = .stopped halted fault →
        halted.contents.last? = some comment ∧
          ∃ error, fault = .unreadable error ∧ Blames worker.state comment error
  /-- Where the event of a line may not happen, there is a last comment to blame for it. -/
  refuses :
    ∀ comment line,
      CommentLine.read config worker.contents.started comment = .ok (some line) →
        table.get? (worker.state, worker.contents.toContents.eventOf line) = none →
          ∃ halted,
            step config worker comment =
                .stopped halted
                  (.unreadable (.unexpectedComment comment worker.state.name)) ∧
              halted.contents.last? = some comment

/-- Every worker that reading leads to is safe. -/
theorem safe_of_sweep
    (fits : Fault.ofRun? config.descriptionIndent = none)
    (reads : Machine.Scan.sweep (step config) start comments = .finished worker) :
    Safe config worker := by
  obtain ⟨reader, readsAlike, follows⟩ := exists_follows_of_sweep reads
  have safe := (Reader.steady_of_run readsAlike).safe fits
  constructor
  case asReader =>
    rw [follows.asReader_eq]
    exact safe
  case begun =>
    rw [follows.state, follows.contents.started_eq, Contents.started,
      Option.isSome_eq_false_iff, Option.isNone_iff_eq_none]
    exact safe.begun
  case blames =>
    intro comment halted fault stops
    constructor
    · have isLast := last?_step config worker comment
      rw [stops] at isLast
      exact isLast
    · rw [follows.state]
      exact safe.blames comment fault (follows.step_eq_error stops)
  case refuses =>
    intro comment line readsLine unexpected
    exact ⟨_, step_of_unexpected readsLine unexpected, rfl⟩

end Worker

/--
Where runs of spaces as long as the description indent can be made, a block is
read, or refused for one of its comments and at its place. All readers that
reading comments leads to are safe. A block is read in place with the same answer,
and all workers that reading comments leads to are safe as well.
-/
theorem docs_blame_comment
    {config : Config}
    (fits : Fault.ofRun? config.descriptionIndent = none)
    (comments : List Token) :
    ((∃ docs, DocBlock.docs config comments = .ok docs) ∨
        ∃ comment ∈ comments,
          ∃ phase error,
            DocBlock.docs config comments = .error (.unreadable error) ∧
              Blames phase comment error ∧ error.position = comment.position) ∧
      (∀ front reader,
        Machine.Scan.run (Reader.step config) .start front = .finished reader →
          Reader.Safe config reader) ∧
      ((Worker.reading config).run comments).outcome = DocBlock.docs config comments ∧
      ∀ front worker,
        Machine.Scan.sweep (Worker.step config) .start front = .finished worker →
          Worker.Safe config worker := by
  refine ⟨?_, ?_, ?_, ?_⟩
  · cases answer : DocBlock.docs config comments with
    | ok docs => exact .inl ⟨docs, rfl⟩
    | error fault =>
        obtain ⟨comment, member, phase, error, rfl, blames⟩ :=
          exists_blames_of_docs fits answer
        exact .inr ⟨comment, member, phase, error, rfl, blames, blames.position⟩
  · intro front reader reads
    exact (Reader.steady_of_run reads).safe fits
  · rw [Worker.run_reading]
    rfl
  · intro front worker reads
    exact Worker.safe_of_sweep fits reads

/-- A hash that is documented. -/
def settingsHeader : Token :=
  ⟨.comment, " @param settings", ⟨1, 3⟩⟩

/-- An option that names another hash than the one that is open. -/
def misplacedOption : Token :=
  ⟨.comment, " @option server [Integer] :port", ⟨5, 3⟩⟩

/-- A hash with an option of its own and an option of another hash. -/
def misplacedBlock : List Token :=
  [settingsHeader, ⟨.comment, "   Settings.", ⟨2, 3⟩⟩,
    ⟨.comment, " @option settings [Boolean] :enabled", ⟨3, 3⟩⟩,
    ⟨.comment, "   Whether it runs.", ⟨4, 3⟩⟩, misplacedOption,
    ⟨.comment, "   The port.", ⟨6, 3⟩⟩]

/--
The misplaced option is refused at its place, and so it is right behind the header,
where no option may stand. Every reader and every worker of the block is safe.
-/
theorem docs_blame_comment_misplacedBlock :
    Fault.ofRun? Config.standard.descriptionIndent = none ∧
      ((Worker.reading Config.standard).run misplacedBlock).outcome =
          .error (.unreadable (.foreignOption misplacedOption)) ∧
        (∃ comment ∈ misplacedBlock,
          ∃ phase error,
            DocBlock.docs Config.standard misplacedBlock = .error (.unreadable error) ∧
              Blames phase comment error ∧ error.position = comment.position) ∧
          (∀ front reader,
            Machine.Scan.run (Reader.step Config.standard) .start front =
                .finished reader →
              Reader.Safe Config.standard reader) ∧
            (∀ front worker,
              Machine.Scan.sweep (Worker.step Config.standard) .start front =
                  .finished worker →
                Worker.Safe Config.standard worker) ∧
              ∃ worker halted,
                Machine.Scan.sweep (Worker.step Config.standard) .start [settingsHeader] =
                    .finished worker ∧
                  Worker.step Config.standard worker misplacedOption =
                      .stopped halted
                        (.unreadable
                          (.unexpectedComment misplacedOption "awaiting_description")) ∧
                    halted.contents.last? = some misplacedOption := by
  have fits : Fault.ofRun? Config.standard.descriptionIndent = none := rfl
  have refused :
      DocBlock.docs Config.standard misplacedBlock =
        .error (.unreadable (.foreignOption misplacedOption)) := by
    decide +kernel
  obtain ⟨⟨docs, read⟩ | blamed, readersSafe, sameAnswer, workersSafe⟩ :=
    docs_blame_comment fits misplacedBlock
  · rw [refused] at read
    cases read
  · have reads :
        Machine.Scan.sweep (Worker.step Config.standard) .start [settingsHeader] =
          .finished
            (Machine.Scan.sweep (Worker.step Config.standard) .start [settingsHeader]).state := by
      decide +kernel
    obtain ⟨halted, stops, isLast⟩ :=
      (workersSafe _ _ reads).refuses misplacedOption
        ⟨misplacedOption, .optionHeader "server" "Integer" "port"⟩
        (by decide +kernel) (by decide +kernel)
    exact
      ⟨fits, sameAnswer.trans refused, blamed, readersSafe, workersSafe, _, halted, reads,
        stops, isLast⟩

end DocAudit.DocBlock
