import DocAudit.Fault

namespace DocAudit

/-!
# Declarations

A declaration of a class or defined type stands somewhere in the token list of
its file and has a parameter list. Its documentation is the run of comments and
line ends that ends right in front of it.
-/

/-- Where a declaration starts in its file, and the tokens of its parameter list. -/
structure Declaration where
  start : Int
  parameterTokens : List Token := []
  deriving Repr, DecidableEq

namespace Declaration

/-- The longest run of comments and line ends at the end of a token list. -/
def closingBlock (tokens : List Token) : List Token :=
  (tokens.reverse.takeWhile Token.isBlockPart).reverse

/--
Walk upwards over comments and line ends, and collect the comments on the way. The
number counts the tokens that are left to look at, of which the lowest comes next.
The walk is over when none is left, or at a token of another kind. A place behind the
end of the file cannot be looked at.
-/
def walkUp
    (tokens : List Token) :
    Nat →
    List Token →
    Option (List Token)
  | 0, collected => some collected
  | place + 1, collected =>
      match tokens[place]? with
      | none => none
      | some token =>
          if token.isBlockPart then
            walkUp tokens place
              (if token.isComment then collected ++ [token] else collected)
          else
            some collected

/--
The comments of the block that ends in front of a place of a file, in the order of
the file. In front of the first token there is none; behind the last one there is no
place.
-/
def commentsAbove
    (tokens : List Token)
    (start : Int) :
    Except Fault (List Token) :=
  match walkUp tokens start.toNat [] with
  | some collected => .ok collected.reverse
  | none => .error (.startOutOfRange start)

end Declaration

end DocAudit
