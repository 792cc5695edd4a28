import DocAudit.CommentLine
import DocAudit.DocBlock.Draft
import DocAudit.DocBlock.Phase
import DocAudit.Machine.Run

namespace DocAudit.DocBlock

/-!
# Reading a documentation block

The reader takes the comments of a block one by one. A parameter header closes
the entry before it and opens the next one; an option header closes the option
before it and opens the next one in the entry that is open. A description line
belongs to the open option, or to the open entry when no option is open. An open
option stays open across a separator. All header lines of the block are checked
for their shape before the first line is read.
-/

/-- What the reader of a documentation block holds besides its phase. -/
structure Contents where
  draft? : Option EntryDraft
  option? : Option OptionDraft
  docs : List ParameterDoc
  deriving Repr, DecidableEq

/-- A reader of a documentation block. -/
abbrev Reader :=
  Machine.Situation Phase Event Contents

namespace Contents

/-- What a reader holds before any comment. -/
def blank : Contents where
  draft? := none
  option? := none
  docs := []

/-- Whether a parameter header was read. -/
def started (contents : Contents) : Bool :=
  contents.draft?.isSome

/-- Whether an option is open. -/
def inOption (contents : Contents) : Bool :=
  contents.option?.isSome

/-- Move the open option to the entry that is open. -/
def closeOption (contents : Contents) : Contents :=
  match contents.option?, contents.draft? with
  | some option, some entry =>
      { contents with
        option? := none
        draft? := some (entry.addOption option.doc) }
  | _, _ => { contents with option? := none }

/-- Move the open entry to the finished ones. -/
def closeEntry (contents : Contents) : Except Fault Contents :=
  match contents.draft? with
  | none => .ok contents
  | some entry =>
      entry.doc.map fun doc =>
        { contents with
          draft? := none
          docs := contents.docs ++ [doc] }

/-- Close what is open and open an entry. -/
def openEntry
    (contents : Contents)
    (name : String)
    (comment : Token) :
    Except Fault Contents :=
  contents.closeOption.closeEntry.map fun closed =>
    { closed with draft? := some (.ofHeader name comment) }

/-- Close the open option and open another one in the same entry. -/
def openOption
    (contents : Contents)
    (hash valueType name : String)
    (comment : Token) :
    Except Fault Contents :=
  let closed := contents.closeOption
  match closed.draft? with
  | none => .error .noEntry
  | some entry =>
      if hash = entry.name then
        .ok
          { closed with
            option? :=
              some
                { owner := hash
                  name := name
                  valueType := valueType
                  line := comment.line
                  lines := [] } }
      else
        .error (.unreadable (.foreignOption comment))

/-- Append a line to the description of the open option or entry. -/
def describe
    (contents : Contents)
    (text : String) :
    Contents :=
  match contents.option?, contents.draft? with
  | some option, _ => { contents with option? := some (option.describe text) }
  | none, some entry => { contents with draft? := some (entry.describe text) }
  | none, none => contents

/-- The event of a line; a description line describes the open option or entry. -/
def eventOf
    (contents : Contents)
    (line : CommentLine) :
    Event :=
  match line.content with
  | .header _ => .gotHeader
  | .optionHeader _ _ _ => .gotOptionHeader
  | .separator => .gotSeparator
  | .description =>
      if contents.inOption then
        .gotOptionDescription
      else
        .gotDescription

/-- What a line changes. -/
def accept
    (contents : Contents)
    (line : CommentLine) :
    Except Fault Contents :=
  match line.content with
  | .header name => contents.openEntry name line.comment
  | .optionHeader hash valueType name =>
      contents.openOption hash valueType name line.comment
  | .separator => .ok contents
  | .description => .ok (contents.describe line.text)

end Contents

namespace Reader

/-- A reader that has read nothing. -/
def start : Reader :=
  .initial .start .blank

/-- Take a line; where its event may not happen, the comment is to blame. -/
def take
    (reader : Reader)
    (line : CommentLine) :
    Except Fault Reader :=
  Machine.Situation.fire
    reader
    table
    (reader.contents.eventOf line)
    (.unreadable (.unexpectedComment line.comment reader.state.name))
    fun contents => contents.accept line

/-- Read one comment, or skip it. -/
def step
    (config : Config)
    (reader : Reader)
    (comment : Token) :
    Except Fault Reader :=
  match CommentLine.read config reader.contents.started comment with
  | .error fault => .error fault
  | .ok none => .ok reader
  | .ok (some line) => take reader line

/-- Close what is open at the end of the block. -/
def finish (reader : Reader) : Except Fault Reader :=
  reader.contents.closeOption.closeEntry.map fun closed =>
    { reader with contents := closed }

/-- Read a whole documentation block from a reader on. -/
def scan
    (config : Config)
    (reader : Reader)
    (comments : List Token) :
    Machine.Scan Reader Fault :=
  match Header.validate comments with
  | .error error => .stopped reader (.unreadable error)
  | .ok () => (Machine.Scan.run (step config) reader comments).andThen finish

end Reader

end DocAudit.DocBlock
