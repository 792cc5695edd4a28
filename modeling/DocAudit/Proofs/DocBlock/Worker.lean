import DocAudit.DocBlock.Worker
import DocAudit.Proofs.DocBlock.DocumentationLines
import DocAudit.Proofs.Machine.InPlace

namespace DocAudit.DocBlock

/-!
# Readers and workers

A worker reads a documentation block as a reader does. A reader tells from its open
entry whether a parameter header was read, a worker keeps a flag for it. Between two
comments both say the same; only at the end of the block, where the last entry is
closed, the flag stays. The main result is `Worker.run_reading`.
-/

namespace Contents

theorem started_closeOption (contents : Contents) :
    contents.closeOption.started = contents.started := by
  rcases contents with ⟨draft?, option?, docs⟩
  cases option? <;> cases draft? <;> rfl

theorem started_of_openOption
    {contents opened : Contents}
    {hash valueType name : String}
    {comment : Token}
    (opens : contents.openOption hash valueType name comment = .ok opened) :
    opened.started = contents.started := by
  obtain ⟨entry, _, _, rfl⟩ := openOption_eq_ok opens
  exact started_closeOption contents

theorem started_describe
    (contents : Contents)
    (text : String) :
    (contents.describe text).started = contents.started := by
  rcases contents with ⟨draft?, option?, docs⟩
  cases option? <;> cases draft? <;> rfl

end Contents

namespace Workspace

@[simp]
theorem toContents_begin (workspace : Workspace) :
    workspace.begin.toContents = workspace.toContents :=
  rfl

/-- What is open is closed at once, or the option alone is. -/
theorem closeEntry_closeOption (workspace : Workspace) :
    workspace.closeOption.closeEntry =
      .attempt workspace.closeOption
        (workspace.toContents.closeOption.closeEntry.map workspace.overwrite) :=
  rfl

/-- Fields that hold what a reader holds, between two comments. -/
structure Holds
    (contents : Contents)
    (workspace : Workspace) :
    Prop where
  contents_eq : workspace.toContents = contents
  started_eq : workspace.started = contents.started

namespace Holds

variable
  {contents : Contents}
  {workspace : Workspace}

/-- A parameter header closes what is open and opens an entry. -/
theorem agrees_openEntry
    (holds : Holds contents workspace)
    (name : String)
    (comment : Token) :
    Machine.Scan.Agrees Holds (fun _ _ => True)
      (.attempt contents (contents.openEntry name comment))
      (workspace.openEntry name comment) := by
  obtain ⟨rfl, _⟩ := holds
  rw [openEntry, Contents.openEntry, closeEntry_closeOption, toContents_begin]
  cases workspace.toContents.closeOption.closeEntry with
  | error fault => exact .stopped trivial
  | ok closed => exact .finished ⟨rfl, rfl⟩

/-- An option header closes the open option, and opens another one or is refused. -/
theorem agrees_openOption
    (holds : Holds contents workspace)
    (hash valueType name : String)
    (comment : Token) :
    Machine.Scan.Agrees Holds (fun _ _ => True)
      (.attempt contents (contents.openOption hash valueType name comment))
      (workspace.openOption hash valueType name comment) := by
  obtain ⟨rfl, started⟩ := holds
  rw [openOption]
  cases opens : workspace.toContents.openOption hash valueType name comment with
  | error fault => exact .stopped trivial
  | ok opened =>
      exact .finished ⟨rfl, started.trans (Contents.started_of_openOption opens).symm⟩

/-- A line is accepted alike. -/
theorem agrees_accept
    (holds : Holds contents workspace)
    (line : CommentLine) :
    Machine.Scan.Agrees Holds (fun _ _ => True)
      (.attempt contents (contents.accept line))
      (workspace.accept line) := by
  rw [accept, Contents.accept]
  cases line.content with
  | header name => exact holds.agrees_openEntry name line.comment
  | optionHeader hash valueType name =>
      exact holds.agrees_openOption hash valueType name line.comment
  | separator => exact .finished holds
  | description =>
      obtain ⟨rfl, started⟩ := holds
      exact .finished ⟨rfl, started.trans (Contents.started_describe _ _).symm⟩

end Holds

end Workspace

namespace Worker

/-- A worker follows a reader when it stands beside it with fields that hold the contents. -/
abbrev Follows
    (reader : Reader)
    (worker : Worker) :
    Prop :=
  Machine.Situation.Mirrors (fun _ => Workspace.Holds) reader worker

/-- Two scans that end in a reader and a worker that follows it, or fail alike. -/
abbrev Agrees
    (scan : Machine.Scan Reader Fault)
    (workerScan : Machine.Scan Worker Fault) :
    Prop :=
  Machine.Scan.Agrees Follows Machine.Situation.Abreast scan workerScan

variable
  {config : Config}
  {reader : Reader}
  {worker : Worker}

/-- Both have read nothing at the start. -/
theorem follows_start : Follows Reader.start start where
  state := rfl
  moves := rfl
  contents := ⟨rfl, rfl⟩

/-- A line is taken alike, by a worker whose last comment it was read from. -/
theorem Follows.agrees_take
    {line : CommentLine}
    (follows : Follows reader worker)
    (isLast : worker.contents.last? = some line.comment) :
    Agrees (.attempt reader (Reader.take reader line)) (take worker line) := by
  rw [take, follows.contents.contents_eq, isLast, follows.state]
  exact Machine.Situation.Mirrors.agrees_fire follows fun _ _ =>
    follows.contents.agrees_accept line

/-- A comment is read alike. -/
theorem Follows.agrees_step
    (follows : Follows reader worker)
    (comment : Token) :
    Agrees
      (.attempt reader (Reader.step config reader comment))
      (step config worker comment) := by
  have noted : Follows reader (worker.update fun workspace => workspace.note comment) :=
    { state := follows.state
      moves := follows.moves
      contents := ⟨follows.contents.contents_eq, follows.contents.started_eq⟩ }
  rw [Reader.step, step, Worker.read, noted.contents.started_eq]
  cases reads : CommentLine.read config reader.contents.started comment with
  | error fault => exact .stopped noted.toAbreast
  | ok line? =>
      cases line? with
      | none => exact .finished noted
      | some line =>
          have isLast : some comment = some line.comment :=
            congrArg some (CommentLine.comment_of_read reads).symm
          exact noted.agrees_take isLast

/-- At the end of the block, the fields hold what a reader holds but for the flag. -/
abbrev Ends
    (reader : Reader)
    (worker : Worker) :
    Prop :=
  Machine.Situation.Mirrors (fun _ contents workspace => workspace.toContents = contents)
    reader worker

/-- What is open at the end of the block is closed alike. -/
theorem Follows.agrees_finish
    (follows : Follows reader worker) :
    Machine.Scan.Agrees Ends Machine.Situation.Abreast
      (.attempt reader (Reader.finish reader))
      (finish worker) := by
  rw [finish, Reader.finish, ← follows.contents.contents_eq]
  rw [Machine.Situation.carryOut, Workspace.closeEntry_closeOption]
  cases worker.contents.toContents.closeOption.closeEntry with
  | error fault => exact .stopped ⟨follows.state, follows.moves⟩
  | ok closed =>
      exact .finished { state := follows.state, moves := follows.moves, contents := rfl }

/-- A documentation block is read in place as it is read by a reader. -/
theorem agrees_scan
    (config : Config)
    (comments : List Token) :
    Machine.Scan.Agrees Ends Machine.Situation.Abreast
      (Reader.scan config Reader.start comments)
      (scan config start comments) := by
  rw [Reader.scan, scan]
  cases Header.validate comments with
  | error error => exact .stopped follows_start.toAbreast
  | ok _ =>
      exact
        Machine.Scan.agrees_run_andThen
          (fun comment follows => follows.agrees_step comment)
          (fun follows => follows.agrees_finish)
          follows_start
          comments

/-- A worker leaves the same run behind as a reader. -/
theorem run_reading (config : Config) :
    (reading config).run = run config :=
  funext fun comments =>
    Machine.Run.ofScan_eq_of_agrees (agrees_scan config comments) fun holds =>
      congrArg Contents.docs holds

end Worker

end DocAudit.DocBlock
