import DocAudit.Token

namespace DocAudit

/-!
# Parse errors

A parameter list or a comment block that cannot be read is reported at the token
that shows it. The errors say what was wrong; their message and their position
are views of them.
-/

/--
Why a parameter list or a comment block cannot be read. A state is given by its
name; the error `general` carries a message and a position of its own.
-/
inductive ParseError where
  | general (message : String) (position : Position)
  | unexpectedToken (token : Token) (state : String)
  | optionalDefault (token : Token) (defaultText nullDefault : String)
  | unexpectedComment (comment : Token) (state : String)
  | foreignOption (comment : Token)
  | malformedHeader (comment : Token)
  deriving Repr, DecidableEq

namespace ParseError

/-- The token or comment that shows an error. -/
def token? : ParseError → Option Token
  | .general _ _ => none
  | .unexpectedToken token _ => some token
  | .optionalDefault token _ _ => some token
  | .unexpectedComment comment _ => some comment
  | .foreignOption comment => some comment
  | .malformedHeader comment => some comment

/-- The position of an error. -/
def position : ParseError → Position
  | .general _ position => position
  | .unexpectedToken token _ => token.position
  | .optionalDefault token _ _ => token.position
  | .unexpectedComment comment _ => comment.position
  | .foreignOption comment => comment.position
  | .malformedHeader comment => comment.position

/-- The message of an error. -/
def message : ParseError → String
  | .general message _ => message
  | .unexpectedToken token state =>
      s!"Can not process the token '{token.trimmed}' in the state {state}"
  | .optionalDefault _ defaultText nullDefault =>
      s!"Invalid value '{defaultText}' for an parameter of type Optional. " ++
        s!"{nullDefault} is required"
  | .unexpectedComment comment state =>
      s!"Invalid state {state} for comment {comment.trimmed}"
  | .foreignOption comment =>
      s!"Option references wrong hash {comment.trimmed}"
  | .malformedHeader comment =>
      s!"Invalid param or hash option header: {comment.trimmed}"

end ParseError

end DocAudit
