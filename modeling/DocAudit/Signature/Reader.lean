import DocAudit.Machine.Run
import DocAudit.Nesting
import DocAudit.Signature.Draft
import DocAudit.Signature.Phase

namespace DocAudit.Signature

/-!
# Reading a parameter list

The reader takes the significant tokens of a parameter list one by one. A type
word opens a type, a name closes it, an equals sign opens a default, and a comma
ends the parameter, unless it stands in a type or inside brackets. All other
tokens belong to the open type or default, and to nothing when neither is open.
The nesting depth runs on from parameter to parameter.
-/

/-- What a significant token does in a parameter list. -/
inductive Role where
  | opensType
  | names
  | opensDefault
  | ends
  | continues
  deriving Repr, DecidableEq

/-- What the reader of a parameter list holds besides its phase. -/
structure Contents where
  nesting : Nesting
  draft : Draft
  last? : Option Token
  parameters : List Parameter
  deriving Repr, DecidableEq

/-- A reader of a parameter list. -/
abbrev Reader :=
  Machine.Situation Phase Event Contents

namespace Contents

/-- What a reader holds before any token. -/
def blank : Contents where
  nesting := .balanced
  draft := .blank
  last? := none
  parameters := []

/-- What a token does, which depends on what is open and on the nesting depth. -/
def role
    (contents : Contents)
    (token : Token) :
    Role :=
  match token.kind with
  | .typeWord =>
      if contents.draft.inDefault || contents.draft.inType then
        .continues
      else
        .opensType
  | .parameterName =>
      if contents.draft.inDefault then
        .continues
      else
        .names
  | .equals =>
      if contents.draft.inDefault then
        .continues
      else
        .opensDefault
  | .comma =>
      if contents.draft.inType || contents.nesting.isNested then
        .continues
      else
        .ends
  | _ => .continues

/-- Remember a token as the last one. -/
def note
    (contents : Contents)
    (token : Token) :
    Contents :=
  { contents with last? := some token }

/-- Count a token into the nesting depth and append it to what is open. -/
def extend
    (contents : Contents)
    (token : Token) :
    Contents :=
  { contents with
    nesting := contents.nesting.after token
    draft := contents.draft.append token }

/-- Open the type with its first token. -/
def openType
    (contents : Contents)
    (token : Token) :
    Contents :=
  { contents with draft := contents.draft.openType token }

/-- Close the type and set the name. -/
def setName
    (config : Config)
    (contents : Contents)
    (token : Token) :
    Contents :=
  { contents with draft := contents.draft.setName config token }

/-- Open the default. -/
def openDefault (contents : Contents) : Contents :=
  { contents with draft := contents.draft.openDefault }

/-- Turn the draft into a parameter and start a new one. -/
def close
    (config : Config)
    (contents : Contents) :
    Except Fault Contents :=
  (contents.draft.parameter config).map fun parameter =>
    { contents with
      draft := .blank
      parameters := contents.parameters ++ [parameter] }

end Contents

namespace Reader

/-- A reader that has read nothing. -/
def start : Reader :=
  .initial .start .blank

/-- Fire an event; where it may not happen, the last token is to blame. -/
def fire
    (reader : Reader)
    (event : Event)
    (change : Contents → Except Fault Contents) :
    Except Fault Reader :=
  Machine.Situation.fire
    reader
    table
    event
    (.blaming reader.contents.last? fun token =>
      .unexpectedToken token reader.state.name)
    change

/-- Close the parameter that is being read. -/
def close
    (config : Config)
    (reader : Reader) :
    Except Fault Reader :=
  fire reader .gotEnd fun contents => contents.close config

/-- Take a significant token that was noted already. -/
def take
    (config : Config)
    (reader : Reader)
    (token : Token) :
    Except Fault Reader :=
  match reader.contents.role token with
  | .opensType =>
      fire reader .gotType fun contents => .ok (contents.openType token)
  | .names =>
      fire reader .gotName fun contents => .ok (contents.setName config token)
  | .opensDefault =>
      fire reader .gotEquals fun contents => .ok contents.openDefault
  | .ends => close config reader
  | .continues => .ok (reader.update fun contents => contents.extend token)

/-- Read one token; a token that is not significant changes nothing. -/
def step
    (config : Config)
    (reader : Reader)
    (token : Token) :
    Except Fault Reader :=
  if token.isSignificant then
    take config (reader.update fun contents => contents.note token) token
  else
    .ok reader

/-- Close the last parameter, which no comma has to end. -/
def finish
    (config : Config)
    (reader : Reader) :
    Except Fault Reader :=
  if reader.state = .start then
    .ok reader
  else
    close config reader

/-- Read a whole parameter list from a reader on. -/
def scan
    (config : Config)
    (reader : Reader)
    (tokens : List Token) :
    Machine.Scan Reader Fault :=
  (Machine.Scan.run (step config) reader tokens).andThen (finish config)

end Reader

end DocAudit.Signature
