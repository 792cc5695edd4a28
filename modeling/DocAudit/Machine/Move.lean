namespace DocAudit.Machine

/-!
# Moves

A machine stands in a state, and an event moves it to another one. A completed
move records the event and both states, and is reported as one line.
-/

/-- One completed move of a machine. -/
structure Move (σ ε : Type) where
  event : ε
  source : σ
  target : σ
  deriving Repr, DecidableEq

/-- The line that reports a move, given names for events and states. -/
def Move.line
    (eventName : ε → String)
    (stateName : σ → String)
    (move : Move σ ε) :
    String :=
  s!"{eventName move.event}: {stateName move.source} -> {stateName move.target}"

end DocAudit.Machine
