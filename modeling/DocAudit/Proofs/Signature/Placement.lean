import DocAudit.Nesting

namespace DocAudit.Signature

/-!
# Tokens and their depth

What a comma means in a parameter list depends on the brackets in front of it.
This module writes the nesting depth next to every token, as the number of
brackets and braces that the tokens in front of it open less the number that
they close. The depth may be negative, and it runs on from one parameter to the
next.
-/

/-- A token together with the nesting depth in front of it. -/
structure Placed where
  token : Token
  depth : Int
  deriving Repr, DecidableEq

/-- Whether a token opens a bracket or a brace. -/
def opens (token : Token) : Bool :=
  decide (token.kind = .openBracket) || decide (token.kind = .openBrace)

/-- Whether a token closes a bracket or a brace. -/
def closes (token : Token) : Bool :=
  decide (token.kind = .closeBracket) || decide (token.kind = .closeBrace)

/-- The number of opening less the number of closing tokens in a list. -/
def netOpened (tokens : List Token) : Int :=
  tokens.countP opens - tokens.countP closes

/-- The tokens of a list, each with the depth in front of it. -/
def placed (tokens : List Token) : List Placed :=
  tokens.mapIdx fun index token => ⟨token, netOpened (tokens.take index)⟩

/-- The tokens of a list that starts at some depth, each with the depth in front of it. -/
def placedFrom (depth : Int) : List Token → List Placed
  | [] => []
  | token :: rest =>
      ⟨token, depth⟩ :: placedFrom (depth + token.kind.depthChange) rest

theorem netOpened_cons
    (token : Token)
    (rest : List Token) :
    netOpened (token :: rest) = token.kind.depthChange + netOpened rest := by
  unfold netOpened
  rw [List.countP_cons, List.countP_cons]
  rcases token with ⟨kind, text, position⟩
  cases kind <;>
    simp [opens, closes, Token.Kind.depthChange] <;>
    omega

/-- Counting the depth along the list agrees with counting it at every place. -/
theorem placedFrom_eq_mapIdx
    (depth : Int)
    (tokens : List Token) :
    placedFrom depth tokens =
      tokens.mapIdx fun index token =>
        ⟨token, depth + netOpened (tokens.take index)⟩ := by
  induction tokens generalizing depth with
  | nil =>
      rfl
  | cons token rest inductionHypothesis =>
      rw [placedFrom, inductionHypothesis, List.mapIdx_cons]
      simp only [List.take_zero, List.take_succ_cons, netOpened_cons, Int.add_assoc]
      simp [netOpened]

/-- At the front of a list the depth is zero. -/
theorem placed_eq_placedFrom (tokens : List Token) :
    placed tokens = placedFrom 0 tokens := by
  simp only [placed, placedFrom_eq_mapIdx, Int.zero_add]

theorem map_token_placedFrom
    (depth : Int)
    (tokens : List Token) :
    (placedFrom depth tokens).map Placed.token = tokens := by
  induction tokens generalizing depth with
  | nil =>
      rfl
  | cons token rest inductionHypothesis =>
      rw [placedFrom, List.map_cons, inductionHypothesis]

/-- Writing depths beside tokens leaves the tokens as they are. -/
theorem map_token_placed (tokens : List Token) :
    (placed tokens).map Placed.token = tokens := by
  rw [placed_eq_placedFrom, map_token_placedFrom]

end DocAudit.Signature
