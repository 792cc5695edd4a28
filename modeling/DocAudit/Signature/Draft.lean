import DocAudit.Config
import DocAudit.Fault

namespace DocAudit.Signature

/-!
# Drafts of parameters

A draft collects the tokens of the parameter that is being read. While its type
or its default is open, tokens are appended to it; the name closes the type, and
the end of the parameter closes the default and turns the draft into a parameter.
-/

/--
The parameter that is being read. An open type or default holds the tokens that
were appended to it so far.
-/
structure Draft where
  typeTokens? : Option (List Token)
  name : String
  declaredType : String
  optional : Bool
  defaultTokens? : Option (List Token)
  deriving Repr, DecidableEq

namespace Draft

/-- The draft of a parameter of which nothing was read. -/
def blank : Draft where
  typeTokens? := none
  name := ""
  declaredType := ""
  optional := false
  defaultTokens? := none

/-- Whether the type is open. -/
def inType (draft : Draft) : Bool :=
  draft.typeTokens?.isSome

/-- Whether the default is open. -/
def inDefault (draft : Draft) : Bool :=
  draft.defaultTokens?.isSome

/-- The tokens of the type. -/
def typeTokens (draft : Draft) : List Token :=
  draft.typeTokens?.getD []

/-- The tokens of the default. -/
def defaultTokens (draft : Draft) : List Token :=
  draft.defaultTokens?.getD []

/-- The text of the default, which is empty when there is none. -/
def defaultText (draft : Draft) : String :=
  Token.joined draft.defaultTokens

/-- Open the type with its first token. -/
def openType
    (draft : Draft)
    (token : Token) :
    Draft :=
  { draft with typeTokens? := some [token] }

/-- Open the default. -/
def openDefault (draft : Draft) : Draft :=
  { draft with defaultTokens? := some [] }

/-- Append a token to the type or the default, whichever is open. -/
def append
    (draft : Draft)
    (token : Token) :
    Draft :=
  match draft.typeTokens?, draft.defaultTokens? with
  | some tokens, _ => { draft with typeTokens? := some (tokens ++ [token]) }
  | none, some tokens => { draft with defaultTokens? := some (tokens ++ [token]) }
  | none, none => draft

/-- The name that a token gives to a parameter: its text less one leading dollar. -/
def nameOf (token : Token) : String :=
  match token.text.toList with
  | '$' :: rest => String.ofList rest
  | _ => token.text

/-- Whether a type begins with the word that marks optional parameters. -/
def isOptional
    (config : Config)
    (typeTokens : List Token) :
    Bool :=
  match typeTokens with
  | [] => false
  | first :: _ => decide (first.text = config.optionalMarker)

/-- Close the type and set the name. -/
def setName
    (config : Config)
    (draft : Draft)
    (token : Token) :
    Draft :=
  { draft with
    typeTokens? := none
    declaredType := Token.joined draft.typeTokens
    optional := isOptional config draft.typeTokens
    name := nameOf token }

/-- The category that a draft amounts to. -/
def category (draft : Draft) : Parameter.Category :=
  if draft.optional then
    .optional
  else if draft.defaultText = "" then
    .mandatory
  else
    .withDefault

/-- Whether an optional draft has a default other than the null literal. -/
def hasWrongDefault
    (config : Config)
    (draft : Draft) :
    Bool :=
  draft.optional &&
    decide (draft.defaultText ≠ "") &&
      decide (draft.defaultText ≠ config.nullDefault)

/--
The parameter that a draft amounts to. The wrong default of an optional
parameter is reported at its first token.
-/
def parameter
    (config : Config)
    (draft : Draft) :
    Except Fault Parameter :=
  if draft.hasWrongDefault config then
    .error
      (.blaming draft.defaultTokens.head? fun token =>
        .optionalDefault token draft.defaultText config.nullDefault)
  else
    Parameter.checked
        { name := draft.name
          declaredType := draft.declaredType
          category := draft.category
          defaultText := draft.defaultText
          nullDefault := config.nullDefault }
      |>.mapError Fault.invalidParameter

end Draft

end DocAudit.Signature
