import DocAudit.Proofs.DocBlock.Verdict
import DocAudit.Proofs.Machine.Path

namespace DocAudit.DocBlock

/-!
# What a reader of a block can rely on

A reader closes an option without asking whether an entry is open, builds an
entry without asking whose options it holds, and opens an option without asking
whether there is an entry for it. It need not ask: its phase, the entry that is
open and the option that is open belong together in every reader that reading
leads to. A block is therefore read, or refused for one of its comments. The main
statements are `Reader.Steady.safe` and `exists_blames_of_docs`.
-/

/-- The errors that a comment can be refused with in a phase. -/
inductive Blames
    (phase : Phase)
    (comment : Token) :
    ParseError → Prop where
  | malformed :
      Blames phase comment (.malformedHeader comment)
  | unexpected :
      Blames phase comment (.unexpectedComment comment phase.name)
  | foreign :
      Blames phase comment (.foreignOption comment)

/-- An error is reported where the comment is that it blames. -/
theorem Blames.position
    {phase : Phase}
    {comment : Token}
    {error : ParseError}
    (blames : Blames phase comment error) :
    error.position = comment.position := by
  cases blames <;> rfl

namespace Contents

variable
  {contents : Contents}
  {line : CommentLine}

/-- Only a parameter header fires the event of one. -/
theorem header_of_eventOf
    (event : contents.eventOf line = .gotHeader) :
    ∃ name, line.content = .header name := by
  rcases line with ⟨comment, content⟩
  cases content with
  | header name => exact ⟨name, rfl⟩
  | optionHeader hash valueType name => cases event
  | separator => cases event
  | description => cases isOpen : contents.inOption <;> simp [eventOf, isOpen] at event

theorem optionHeader_of_eventOf
    (event : contents.eventOf line = .gotOptionHeader) :
    ∃ hash valueType name, line.content = .optionHeader hash valueType name := by
  rcases line with ⟨comment, content⟩
  cases content with
  | header name => cases event
  | optionHeader hash valueType name => exact ⟨hash, valueType, name, rfl⟩
  | separator => cases event
  | description => cases isOpen : contents.inOption <;> simp [eventOf, isOpen] at event

end Contents

namespace Reader

/-- What every reader relies on: options, entries and phases belong together. -/
structure Steady (reader : Reader) : Prop where
  sound : Sound reader
  stage : ∃ stage, reader.standing.At stage
  fresh : reader.state = .start → reader.standing.name? = none

theorem steady_start : Steady start where
  sound := sound_start
  stage := ⟨.start, rfl, rfl⟩
  fresh := fun _ => rfl

/-- No line leads back to the start. -/
theorem ne_start_of_get?_table
    {source target : Phase}
    {event : Event}
    (lookup : table.get? (source, event) = some target) :
    target ≠ .start := by
  rintro rfl
  rw [get?_table] at lookup
  cases source <;> cases event <;> cases lookup

variable
  {config : Config}
  {reader next : Reader}
  {comment : Token}
  {line : CommentLine}
  {fault : Fault}

theorem Steady.take
    (steady : Steady reader)
    (takes : Reader.take reader line = .ok next) :
    Steady next := by
  have moves := standing_take steady.sound line
  rw [takes] at moves
  obtain ⟨phase, lookup, enters⟩ := Option.bind_eq_some_iff.mp moves.symm
  obtain ⟨stage, isAt⟩ := steady.stage
  constructor
  · exact steady.sound.take takes
  · rw [isAt.get?_table, Option.map_eq_some_iff] at lookup
    obtain ⟨target, stageMoves, rfl⟩ := lookup
    exact ⟨target, isAt.enter stageMoves enters⟩
  · intro atStart
    obtain ⟨target, contents, found, _, rfl⟩ := Machine.Situation.fire_eq_ok takes
    exact (ne_start_of_get?_table found atStart).elim

/-- A comment that is read, or skipped, leaves the reader steady. -/
theorem Steady.step
    (steady : Steady reader)
    (steps : Reader.step config reader comment = .ok next) :
    Steady next := by
  unfold Reader.step at steps
  split at steps
  · cases steps
  · cases steps
    exact steady
  · exact steady.take steps

/-- Every reader that reading leads to is steady. -/
theorem steady_of_run
    {comments : List Token}
    {last : Reader}
    (runs : Machine.Scan.run (Reader.step config) .start comments = .finished last) :
    Steady last :=
  Machine.Scan.holds_of_run Steady.step steady_start runs

/-- Why a reader cannot read a comment. -/
inductive Halts
    (config : Config)
    (reader : Reader)
    (comment : Token) :
    Fault →
    Prop where
  /-- The comment is a header line of neither shape. -/
  | malformed :
      Halts config reader comment (.unreadable (.malformedHeader comment))
  /-- No run of spaces can be made that is as long as the description indent. -/
  | tooLong
      {fault : Fault} :
      Fault.ofRun? config.descriptionIndent = some fault →
      Halts config reader comment fault
  /-- The event of the line may not happen in the phase of the reader. -/
  | unexpected :
      Halts config reader comment
        (.unreadable (.unexpectedComment comment reader.state.name))
  /-- An option may follow, but not one of another entry. -/
  | foreign :
      reader.state = .awaitingSeparator →
      Halts config reader comment (.unreadable (.foreignOption comment))

/-- Only where a description may end may an option follow. -/
theorem awaitsSeparator_of_get?_table
    {source target : Phase}
    (lookup : table.get? (source, .gotOptionHeader) = some target) :
    source = .awaitingSeparator := by
  rw [get?_table] at lookup
  cases source <;> cases lookup
  rfl

/-- A line that is refused is not expected in the phase, or names another entry. -/
theorem halts_of_take
    (steady : Steady reader)
    (refused : Reader.take reader line = .error fault) :
    Halts config reader line.comment fault := by
  rcases line with ⟨comment, content⟩
  -- Where the event may happen, it is what the line changes that failed.
  rcases Machine.Situation.fire_eq_error refused with
    ⟨_, rfl⟩ | ⟨target, lookup, fails⟩
  · exact .unexpected
  cases content with
  | header name =>
      obtain ⟨docs, opens⟩ := steady.sound.owned.exists_openEntry name comment
      have opensHere := opens.symm.trans fails
      cases opensHere
  | optionHeader hash valueType name =>
      have notHeader : Event.gotOptionHeader ≠ .gotHeader := by decide
      obtain ⟨entryName, isOpen⟩ := steady.sound.exists_name notHeader lookup
      by_cases sameName : entryName = hash
      · obtain ⟨opened, opens⟩ :=
          Contents.exists_openOption (isOpen.trans (congrArg some sameName))
            valueType name comment
        have opensHere := opens.symm.trans fails
        cases opensHere
      · have refusal :=
          Contents.openOption_eq_error isOpen sameName valueType name comment
        have refusedHere := refusal.symm.trans fails
        cases refusedHere
        exact .foreign (awaitsSeparator_of_get?_table lookup)
  | separator => cases fails
  | description => cases fails

/-- A comment that stops a reader cannot be read, or its line is refused. -/
theorem halts_of_step
    (steady : Steady reader)
    (fails : Reader.step config reader comment = .error fault) :
    Halts config reader comment fault := by
  unfold Reader.step at fails
  cases read : CommentLine.read config reader.contents.started comment with
  | error unreadable =>
      simp only [read, Except.error.injEq] at fails
      subst fails
      rcases CommentLine.read_eq_error read with ⟨rfl, _⟩ | tooLong
      · exact .malformed
      · exact .tooLong tooLong
  | ok line? =>
      cases line? with
      | none => simp [read] at fails
      | some line =>
          simp only [read] at fails
          obtain rfl := CommentLine.comment_of_read read
          exact halts_of_take steady fails

/--
A comment that cannot be read, or is refused, is blamed; where runs of spaces as
long as the description indent can be made, nothing else goes wrong.
-/
theorem blames_of_step
    (fits : Fault.ofRun? config.descriptionIndent = none)
    (steady : Steady reader)
    (fails : Reader.step config reader comment = .error fault) :
    ∃ error, fault = .unreadable error ∧ Blames reader.state comment error := by
  cases halts_of_step steady fails with
  | malformed => exact ⟨_, rfl, .malformed⟩
  | tooLong tooLong =>
      rw [fits] at tooLong
      cases tooLong
  | unexpected => exact ⟨_, rfl, .unexpected⟩
  | foreign _ => exact ⟨_, rfl, .foreign⟩

/-- What holds of a reader that reads on, whatever it has read. -/
structure Safe
    (config : Config)
    (reader : Reader) : Prop where
  /-- An entry is open from the first header on, and none in front of it. -/
  begun : reader.state = .start ↔ reader.contents.draft? = none
  /-- Where the description of an option is awaited, an option is open. -/
  inOption : reader.state = .awaitingOptionDescription → reader.contents.inOption = true
  /-- Where the description of an entry is awaited, no option is open. -/
  inEntry : reader.state = .awaitingDescription → reader.contents.inOption = false
  /-- Where an option header may follow, there is an entry for it. -/
  entryOpen :
    ∀ phase,
      table.get? (reader.state, .gotOptionHeader) = some phase →
        ∃ entry, reader.contents.draft? = some entry
  /-- Closing the open option moves it to the open entry, to which it belongs. -/
  optionKept :
    ∀ option,
      reader.contents.option? = some option →
        ∃ entry,
          reader.contents.draft? = some entry ∧
            option.owner = entry.name ∧
              reader.contents.closeOption.draft? = some (entry.addOption option.doc)
  /-- The open entry can be closed: its options belong to it. -/
  entryCloses : ∃ closed, reader.contents.closeOption.closeEntry = .ok closed
  /-- An event of a parameter header comes with such a header. -/
  paramHeader :
    ∀ comment line,
      CommentLine.read config reader.contents.started comment = .ok (some line) →
        reader.contents.eventOf line = .gotHeader →
          ∃ name,
            line.content = .header name ∧
              Header.ofComment? comment = some (.param name)
  /-- An event of an option header comes with such a header. -/
  optionHeader :
    ∀ comment line,
      CommentLine.read config reader.contents.started comment = .ok (some line) →
        reader.contents.eventOf line = .gotOptionHeader →
          ∃ hash valueType name,
            line.content = .optionHeader hash valueType name ∧
              Header.ofComment? comment = some (.option hash valueType name)
  /-- A comment that the reader stops at is blamed, in the phase of the reader. -/
  blames :
    ∀ comment fault,
      Reader.step config reader comment = .error fault →
        ∃ error, fault = .unreadable error ∧ Blames reader.state comment error

theorem Steady.draft?_eq_none_iff
    (steady : Steady reader) :
    reader.state = .start ↔ reader.contents.draft? = none := by
  have noName_iff : reader.standing.name? = none ↔ reader.contents.draft? = none :=
    Option.map_eq_none_iff
  rw [← noName_iff]
  exact ⟨steady.fresh, steady.sound.begun⟩

theorem Steady.safe
    (fits : Fault.ofRun? config.descriptionIndent = none)
    (steady : Steady reader) :
    Safe config reader := by
  obtain ⟨stage, isAt⟩ := steady.stage
  have phase : reader.state = stage.phase := isAt.phase
  have inOption : reader.contents.inOption = stage.inOption := isAt.inOption
  constructor
  case begun => exact steady.draft?_eq_none_iff
  case inOption =>
    intro awaits
    rw [phase] at awaits
    rw [inOption]
    cases stage with
    | optionHeaded => rfl
    | _ => cases awaits
  case inEntry =>
    intro awaits
    rw [phase] at awaits
    rw [inOption]
    cases stage with
    | headed => rfl
    | _ => cases awaits
  case entryOpen =>
    intro target lookup
    obtain ⟨name, isName⟩ := steady.sound.exists_name (by decide) lookup
    obtain ⟨entry, isOpen, _⟩ := Option.map_eq_some_iff.mp isName
    exact ⟨entry, isOpen⟩
  case optionKept =>
    intro option isPending
    obtain ⟨entry, isOpen, belongs⟩ := steady.sound.owned.pending option isPending
    refine ⟨entry, isOpen, belongs, ?_⟩
    simp only [Contents.closeOption, isPending, Option.mem_def.mp isOpen]
  case entryCloses =>
    obtain ⟨docs, closes⟩ := steady.sound.owned.closeOption.exists_closeEntry
    exact ⟨_, closes⟩
  case paramHeader =>
    intro comment line read event
    obtain ⟨name, isHeader⟩ := Contents.header_of_eventOf event
    have header : line.content.header? = some (.param name) := by
      rw [isHeader]
      rfl
    exact ⟨name, isHeader, CommentLine.ofComment?_of_read read header⟩
  case optionHeader =>
    intro comment line read event
    obtain ⟨hash, valueType, name, isHeader⟩ := Contents.optionHeader_of_eventOf event
    have header : line.content.header? = some (.option hash valueType name) := by
      rw [isHeader]
      rfl
    exact ⟨hash, valueType, name, isHeader, CommentLine.ofComment?_of_read read header⟩
  case blames =>
    intro comment fault fails
    exact blames_of_step fits steady fails

end Reader

/-- A block that is refused is refused for one of its comments. -/
theorem exists_blames_of_docs
    {config : Config}
    {comments : List Token}
    {fault : Fault}
    (fits : Fault.ofRun? config.descriptionIndent = none)
    (refused : DocBlock.docs config comments = .error fault) :
    ∃ comment ∈ comments,
      ∃ phase error, fault = .unreadable error ∧ Blames phase comment error := by
  cases checked : Header.validate comments with
  | error error =>
      have fails : Header.validate comments ≠ .ok () := by simp [checked]
      obtain ⟨blamed, member, reported⟩ := Header.exists_of_validate_ne_ok fails
      rw [docs_of_invalid reported] at refused
      cases refused
      exact ⟨blamed, member, .start, _, rfl, .malformed⟩
  | ok _ =>
      rw [docs_of_valid checked] at refused
      obtain ⟨reached, stopped | ⟨finished, unfinished⟩⟩ :=
        Machine.Scan.exists_of_outcome_andThen_eq_error refused
      · obtain ⟨front, comment, back, rfl, reads, fails⟩ :=
          Machine.Scan.exists_of_run_eq_stopped stopped
        obtain ⟨error, isError, blames⟩ :=
          Reader.blames_of_step fits (Reader.steady_of_run reads) fails
        exact ⟨comment, by simp, reached.state, error, isError, blames⟩
      · obtain ⟨final, finishes⟩ := (Reader.steady_of_run finished).sound.exists_finish
        rw [finishes] at unfinished
        cases unfinished

end DocAudit.DocBlock
