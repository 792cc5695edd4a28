import DocAudit.Text.Blank
import DocAudit.Text.Quoted

namespace DocAudit

/-!
# Tokens

A file arrives as a list of classified tokens. A token has a kind, a text and a
position; its text need not agree with its kind. The kinds fall into classes: a
token of a layout kind or a comment carries nothing for a parameter list, and the
block above a declaration consists of comments and line ends.
-/

/-- A place in a file. -/
structure Position where
  line : Int
  column : Int
  deriving Repr, DecidableEq

namespace Position

/-- The first place of a file. -/
def first : Position where
  line := 1
  column := 1

end Position

namespace Token

/-- The kinds of tokens. -/
inductive Kind where
  | typeWord
  | parameterName
  | equals
  | comma
  | openBracket
  | closeBracket
  | openBrace
  | closeBrace
  | comment
  | newline
  | indent
  | whitespace
  | other
  deriving Repr, DecidableEq

namespace Kind

/-- All kinds. -/
def all : List Kind :=
  [.typeWord, .parameterName, .equals, .comma, .openBracket, .closeBracket,
    .openBrace, .closeBrace, .comment, .newline, .indent, .whitespace, .other]

/-- The name of a kind. -/
def name : Kind → String
  | .typeWord => "TYPE"
  | .parameterName => "VARIABLE"
  | .equals => "EQUALS"
  | .comma => "COMMA"
  | .openBracket => "LBRACK"
  | .closeBracket => "RBRACK"
  | .openBrace => "LBRACE"
  | .closeBrace => "RBRACE"
  | .comment => "COMMENT"
  | .newline => "NEWLINE"
  | .indent => "INDENT"
  | .whitespace => "WHITESPACE"
  | .other => "OTHER"

/-- The kind with a name. -/
def ofName? (text : String) : Option Kind :=
  all.find? fun kind => decide (kind.name = text)

/-- The message that reports a name without a kind. -/
def unknownMessage (text : String) : String :=
  Text.quoted text ++ " is not a valid TokenKind"

/-- Whether tokens of a kind carry layout only. -/
def isLayout : Kind → Bool
  | .newline | .indent | .whitespace => true
  | _ => false

/-- Whether tokens of a kind mean something in a parameter list. -/
def isSignificant (kind : Kind) : Bool :=
  !kind.isLayout && !decide (kind = .comment)

/-- Whether tokens of a kind belong to the block above a declaration. -/
def isBlockPart : Kind → Bool
  | .comment | .newline => true
  | _ => false

/-- Every kind is listed. -/
theorem mem_all (kind : Kind) : kind ∈ all := by
  cases kind <;> decide

/-- A kind is the kind with its name. -/
theorem ofName?_name (kind : Kind) : ofName? kind.name = some kind := by
  cases kind <;> decide

end Kind

end Token

/-- A classified token. -/
structure Token where
  kind : Token.Kind
  text : String
  position : Position := .first
  deriving Repr, DecidableEq

namespace Token

/-- The line of a token. -/
def line (token : Token) : Int :=
  token.position.line

/-- Whether a token means something in a parameter list. -/
def isSignificant (token : Token) : Bool :=
  token.kind.isSignificant

/-- Whether a token is a comment. -/
def isComment (token : Token) : Bool :=
  decide (token.kind = .comment)

/-- Whether a token belongs to the block above a declaration. -/
def isBlockPart (token : Token) : Bool :=
  token.kind.isBlockPart

/-- The block above a declaration consists of comments and line ends. -/
theorem isBlockPart_iff {token : Token} :
    token.isBlockPart = true ↔ token.kind = .comment ∨ token.kind = .newline := by
  rcases token with ⟨kind, text, position⟩
  cases kind <;> simp [isBlockPart, Kind.isBlockPart]

/-- The characters of a token without the blank ones at its two ends. -/
def core (token : Token) : List Char :=
  Text.trim token.text.toList

/-- The text of a token without the blank characters at its two ends. -/
def trimmed (token : Token) : String :=
  String.ofList token.core

/-- The texts of tokens, one after the other. -/
def joined (tokens : List Token) : String :=
  String.join (tokens.map Token.text)

/-- Joining two lists of tokens in a row appends their texts. -/
theorem joined_append (first second : List Token) :
    joined (first ++ second) = joined first ++ joined second := by
  apply String.toList_inj.mp
  simp [joined]

end Token

end DocAudit
