import DocAudit.Machine.Parser
import DocAudit.Signature.Reader

namespace DocAudit.Signature

/-!
# Parsers of parameter lists

A parser of parameter lists reads lists of tokens into parameters, all with the
same settings.
-/

/-- What reading a parameter list leaves behind for others to see. -/
abbrev Run :=
  Machine.Run Phase Event Fault Parameter

/-- The lines that report a run. -/
def Run.log (run : Run) : List String :=
  Machine.Run.log Event.name Phase.name "parameters" run

/-- Reading parameter lists. -/
def reading
    (config : Config) :
    Machine.Reading Phase Event Contents Fault Token Parameter where
  start := Reader.start
  scan := Reader.scan config
  records := Contents.parameters

/-- A parser of parameter lists. -/
abbrev Parser :=
  Machine.Parser Phase Event Contents Fault Token Parameter

/-- A new parser. -/
def Parser.ofConfig (config : Config) : Parser :=
  .ofReading (reading config)

/-- Read a parameter list with a new parser. -/
def run
    (config : Config)
    (tokens : List Token) :
    Run :=
  (reading config).run tokens

/-- The parameters of a parameter list in order. -/
def parameters
    (config : Config)
    (tokens : List Token) :
    Except Fault (List Parameter) :=
  (run config tokens).outcome

end DocAudit.Signature
