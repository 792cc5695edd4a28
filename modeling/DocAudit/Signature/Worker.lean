import DocAudit.Machine.InPlace
import DocAudit.Signature.Parser

namespace DocAudit.Signature

/-!
# Reading a parameter list in place

A worker reads a parameter list like a reader, but keeps what it reads in fields
that it overwrites. Flags say whether a type or a default is open, beside the tokens
of both, and are cleared one by one. When a fault stops a worker, its fields stay as
they are until the next list is begun.
-/

/-- The fields of a worker. -/
structure Workspace where
  nesting : Nesting
  typeTokens : List Token
  defaultTokens : List Token
  inType : Bool
  inDefault : Bool
  name : String
  declaredType : String
  optional : Bool
  last? : Option Token
  parameters : List Parameter
  deriving Repr, DecidableEq

namespace Workspace

/-- The fields before any token. -/
def blank : Workspace where
  nesting := .balanced
  typeTokens := []
  defaultTokens := []
  inType := false
  inDefault := false
  name := ""
  declaredType := ""
  optional := false
  last? := none
  parameters := []

/-- Remember a token as the last one. -/
def note
    (workspace : Workspace)
    (token : Token) :
    Workspace :=
  { workspace with last? := some token }

/-- Append a token to the type and leave the type open. -/
def pushType
    (workspace : Workspace)
    (token : Token) :
    Workspace :=
  { workspace with
    inType := true
    typeTokens := workspace.typeTokens ++ [token] }

/-- Append a token to the default. -/
def pushDefault
    (workspace : Workspace)
    (token : Token) :
    Workspace :=
  { workspace with defaultTokens := workspace.defaultTokens ++ [token] }

/-- Append a token to the type or the default, whichever is open. -/
def append
    (workspace : Workspace)
    (token : Token) :
    Workspace :=
  if workspace.inType then
    workspace.pushType token
  else if workspace.inDefault then
    workspace.pushDefault token
  else
    workspace

/-- Count a token into the nesting depth. -/
def count
    (workspace : Workspace)
    (token : Token) :
    Workspace :=
  { workspace with nesting := workspace.nesting.after token }

/-- Close the type and set the name. -/
def setName
    (config : Config)
    (workspace : Workspace)
    (token : Token) :
    Workspace :=
  { workspace with
    declaredType := Token.joined workspace.typeTokens
    optional := Draft.isOptional config workspace.typeTokens
    name := Draft.nameOf token
    inType := false
    typeTokens := [] }

/-- Open the default. -/
def openDefault (workspace : Workspace) : Workspace :=
  { workspace with inDefault := true }

/-- Clear the fields of one parameter. -/
def nextParameter (workspace : Workspace) : Workspace :=
  { workspace with
    typeTokens := []
    defaultTokens := []
    inType := false
    inDefault := false
    name := ""
    declaredType := ""
    optional := false }

/-- The draft that the fields amount to when a parameter ends. -/
def ending (workspace : Workspace) : Draft where
  typeTokens? := none
  name := workspace.name
  declaredType := workspace.declaredType
  optional := workspace.optional
  defaultTokens? := some workspace.defaultTokens

/-- Turn the fields into a parameter and clear them. -/
def close
    (config : Config)
    (workspace : Workspace) :
    Machine.Scan Workspace Fault :=
  match workspace.ending.parameter config with
  | .error fault => .stopped workspace fault
  | .ok parameter =>
      .finished
        ({ workspace with
          parameters := workspace.parameters ++ [parameter] }).nextParameter

end Workspace

/-- A reader of parameter lists that works in place. -/
abbrev Worker :=
  Machine.Situation Phase Event Workspace

namespace Worker

/-- A worker that has read nothing. -/
def start : Worker :=
  .initial .start .blank

/-- Fire an event; where it may not happen, the last token is to blame. -/
def fire
    (worker : Worker)
    (event : Event)
    (procedure : Workspace → Machine.Scan Workspace Fault) :
    Machine.Scan Worker Fault :=
  Machine.Situation.fireInPlace
    worker
    table
    event
    (.blaming worker.contents.last? fun token =>
      .unexpectedToken token worker.state.name)
    procedure

/-- Close the parameter that is being read. -/
def close
    (config : Config)
    (worker : Worker) :
    Machine.Scan Worker Fault :=
  fire worker .gotEnd fun workspace => workspace.close config

/-- Take a significant token that was noted already. -/
def take
    (config : Config)
    (worker : Worker)
    (token : Token) :
    Machine.Scan Worker Fault :=
  let workspace := worker.contents
  match token.kind with
  | .typeWord =>
      if workspace.inDefault then
        .finished (worker.update fun workspace => workspace.pushDefault token)
      else
        let opened : Machine.Scan Worker Fault :=
          if workspace.inType then .finished worker else fire worker .gotType .finished
        opened.follow fun worker =>
          .finished (worker.update fun workspace => workspace.pushType token)
  | .parameterName =>
      if workspace.inDefault then
        .finished (worker.update fun workspace => workspace.pushDefault token)
      else
        fire worker .gotName fun workspace =>
          .finished (workspace.setName config token)
  | .equals =>
      if workspace.inDefault then
        .finished (worker.update fun workspace => workspace.pushDefault token)
      else
        fire worker .gotEquals fun workspace => .finished workspace.openDefault
  | .comma =>
      if workspace.inType then
        .finished (worker.update fun workspace => workspace.pushType token)
      else if workspace.nesting.isNested then
        .finished (worker.update fun workspace => workspace.append token)
      else
        close config worker
  | _ => .finished (worker.update fun workspace => (workspace.count token).append token)

/-- Read one token; a token that is not significant changes nothing. -/
def step
    (config : Config)
    (worker : Worker)
    (token : Token) :
    Machine.Scan Worker Fault :=
  if token.isSignificant then
    take config (worker.update fun workspace => workspace.note token) token
  else
    .finished worker

/-- Close the last parameter, which no comma has to end. -/
def finish
    (config : Config)
    (worker : Worker) :
    Machine.Scan Worker Fault :=
  if worker.state = .start then
    .finished worker
  else
    close config worker

/-- Read a whole parameter list from a worker on. -/
def scan
    (config : Config)
    (worker : Worker)
    (tokens : List Token) :
    Machine.Scan Worker Fault :=
  (Machine.Scan.sweep (step config) worker tokens).follow (finish config)

/-- Reading parameter lists in place. -/
def reading
    (config : Config) :
    Machine.Reading Phase Event Workspace Fault Token Parameter where
  start := start
  scan := scan config
  records := Workspace.parameters

end Worker

end DocAudit.Signature
