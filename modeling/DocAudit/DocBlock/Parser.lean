import DocAudit.DocBlock.Reader
import DocAudit.Machine.Parser

namespace DocAudit.DocBlock

/-!
# Parsers of documentation blocks

A parser of documentation blocks reads lists of comments into entries, all with
the same settings.
-/

/-- What reading a documentation block leaves behind for others to see. -/
abbrev Run :=
  Machine.Run Phase Event Fault ParameterDoc

/-- The lines that report a run. -/
def Run.log (run : Run) : List String :=
  Machine.Run.log Event.name Phase.name "documented parameters" run

/-- Reading documentation blocks. -/
def reading
    (config : Config) :
    Machine.Reading Phase Event Contents Fault Token ParameterDoc where
  start := Reader.start
  scan := Reader.scan config
  records := Contents.docs

/-- A parser of documentation blocks. -/
abbrev Parser :=
  Machine.Parser Phase Event Contents Fault Token ParameterDoc

/-- A new parser. -/
def Parser.ofConfig (config : Config) : Parser :=
  .ofReading (reading config)

/-- Read a documentation block with a new parser. -/
def run
    (config : Config)
    (comments : List Token) :
    Run :=
  (reading config).run comments

/-- The entries of a documentation block in order. -/
def docs
    (config : Config)
    (comments : List Token) :
    Except Fault (List ParameterDoc) :=
  (run config comments).outcome

end DocAudit.DocBlock
