import DocAudit.DocBlock.Parser
import DocAudit.Machine.InPlace

namespace DocAudit.DocBlock

/-!
# Reading a documentation block in place

A worker reads a documentation block like a reader, but keeps what it reads in
fields that it overwrites. A line that is refused may have changed them already: an
option header of another entry closes the open option before it is compared with the
open entry. When a fault stops a worker, its fields stay as they are until the next
block is begun.
-/

/--
The fields of a worker: what a reader holds, whether a parameter header was read, and
the last comment.
-/
structure Workspace extends Contents where
  started : Bool
  last? : Option Token
  deriving Repr, DecidableEq

namespace Workspace

/-- The fields before any comment. -/
def blank : Workspace where
  toContents := .blank
  started := false
  last? := none

/-- Remember a comment as the last one. -/
def note
    (workspace : Workspace)
    (comment : Token) :
    Workspace :=
  { workspace with last? := some comment }

/-- Note that a parameter header was read. -/
def begin (workspace : Workspace) : Workspace :=
  { workspace with started := true }

/-- Overwrite what a reader holds. -/
def overwrite
    (workspace : Workspace)
    (contents : Contents) :
    Workspace :=
  { workspace with toContents := contents }

/-- Move the open option to the entry that is open. -/
def closeOption (workspace : Workspace) : Workspace :=
  workspace.overwrite workspace.toContents.closeOption

/-- Move the open entry to the finished ones; an invalid entry stays open. -/
def closeEntry (workspace : Workspace) : Machine.Scan Workspace Fault :=
  .attempt workspace (workspace.toContents.closeEntry.map workspace.overwrite)

/-- Begin, close what is open, and open an entry. -/
def openEntry
    (workspace : Workspace)
    (name : String)
    (comment : Token) :
    Machine.Scan Workspace Fault :=
  workspace.begin.closeOption.closeEntry.follow fun closed =>
    .finished
      (closed.overwrite
        { closed.toContents with draft? := some (.ofHeader name comment) })

/-- Open another option in the same entry; the open one is closed in any case. -/
def openOption
    (workspace : Workspace)
    (hash valueType name : String)
    (comment : Token) :
    Machine.Scan Workspace Fault :=
  .attempt workspace.closeOption
    ((workspace.toContents.openOption hash valueType name comment).map workspace.overwrite)

/-- What a line changes. -/
def accept
    (workspace : Workspace)
    (line : CommentLine) :
    Machine.Scan Workspace Fault :=
  match line.content with
  | .header name => workspace.openEntry name line.comment
  | .optionHeader hash valueType name =>
      workspace.openOption hash valueType name line.comment
  | .separator => .finished workspace
  | .description =>
      .finished (workspace.overwrite (workspace.toContents.describe line.text))

end Workspace

/-- A reader of documentation blocks that works in place. -/
abbrev Worker :=
  Machine.Situation Phase Event Workspace

namespace Worker

/-- A worker that has read nothing. -/
def start : Worker :=
  .initial .start .blank

/-- Take a line; where its event may not happen, the last comment is to blame. -/
def take
    (worker : Worker)
    (line : CommentLine) :
    Machine.Scan Worker Fault :=
  Machine.Situation.fireInPlace
    worker
    table
    (worker.contents.toContents.eventOf line)
    (.blaming worker.contents.last? fun comment =>
      .unexpectedComment comment worker.state.name)
    fun workspace => workspace.accept line

/-- Read a comment that was noted already, or skip it. -/
def read
    (config : Config)
    (worker : Worker)
    (comment : Token) :
    Machine.Scan Worker Fault :=
  match CommentLine.read config worker.contents.started comment with
  | .error fault => .stopped worker fault
  | .ok none => .finished worker
  | .ok (some line) => take worker line

/-- Read one comment, or skip it. -/
def step
    (config : Config)
    (worker : Worker)
    (comment : Token) :
    Machine.Scan Worker Fault :=
  read config (worker.update fun workspace => workspace.note comment) comment

/-- Close what is open at the end of the block. -/
def finish (worker : Worker) : Machine.Scan Worker Fault :=
  worker.carryOut fun workspace => workspace.closeOption.closeEntry

/-- Read a whole documentation block from a worker on. -/
def scan
    (config : Config)
    (worker : Worker)
    (comments : List Token) :
    Machine.Scan Worker Fault :=
  match Header.validate comments with
  | .error error => .stopped worker (.unreadable error)
  | .ok () => (Machine.Scan.sweep (step config) worker comments).follow finish

/-- Reading documentation blocks in place. -/
def reading
    (config : Config) :
    Machine.Reading Phase Event Workspace Fault Token ParameterDoc where
  start := start
  scan := scan config
  records := fun workspace => workspace.docs

end Worker

end DocAudit.DocBlock
