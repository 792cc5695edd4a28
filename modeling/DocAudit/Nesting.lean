import DocAudit.Token

namespace DocAudit

/-!
# Nesting

The nesting depth of a token list counts the brackets and braces that it opens
and takes away those that it closes. Nothing asks for balance, so the depth may
be negative.
-/

namespace Token.Kind

/-- What a token of a kind adds to the nesting depth. -/
def depthChange : Kind → Int
  | .openBracket | .openBrace => 1
  | .closeBracket | .closeBrace => -1
  | _ => 0

/-- Whether a kind is a bracket or a brace. -/
def isBracket (kind : Kind) : Bool :=
  decide (kind.depthChange ≠ 0)

end Token.Kind

/-- A running count of opened minus closed brackets and braces. -/
structure Nesting where
  depth : Int
  deriving Repr, DecidableEq

namespace Nesting

/-- The nesting of an empty token list. -/
def balanced : Nesting where
  depth := 0

/-- The nesting after one more token. -/
def after
    (nesting : Nesting)
    (token : Token) :
    Nesting where
  depth := nesting.depth + token.kind.depthChange

/-- Whether the count is off balance. -/
def isNested (nesting : Nesting) : Bool :=
  decide (nesting.depth ≠ 0)

end Nesting

end DocAudit
