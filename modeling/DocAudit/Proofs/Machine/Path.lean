import DocAudit.Machine.Situation

namespace DocAudit.Machine

/-!
# Paths

The moves of a machine form a path: each one goes along an entry of the table, and
starts in the state that the one before it led to. An event that is refused, or that
fails in what it changes, adds no move.
-/

/-- Moves along a table that lead from one state to another. -/
inductive Path
    [DecidableEq σ]
    [DecidableEq ε]
    (table : Table σ ε)
    (source : σ) :
    List (Move σ ε) →
    σ →
    Prop where
  | nil :
      Path table source [] source
  | concat
      {moves : List (Move σ ε)}
      {middle target : σ}
      {event : ε} :
      Path table source moves middle →
      table.get? (middle, event) = some target →
      Path table source (moves ++ [⟨event, middle, target⟩]) target

/-- How often an event was fired. -/
def countOf
    [DecidableEq ε]
    (event : ε)
    (moves : List (Move σ ε)) :
    Nat :=
  moves.countP fun move => decide (move.event = event)

theorem countOf_append
    [DecidableEq ε]
    (event : ε)
    (first second : List (Move σ ε)) :
    countOf event (first ++ second) = countOf event first + countOf event second :=
  List.countP_append

/-- An event that is fired once in each of several lists is fired as often as there are lists. -/
theorem countOf_flatten
    [DecidableEq ε]
    {event : ε}
    {rounds : List (List (Move σ ε))}
    (once : ∀ round ∈ rounds, countOf event round = 1) :
    countOf event rounds.flatten = rounds.length := by
  induction rounds with
  | nil => rfl
  | cons round rest inductionHypothesis =>
      obtain ⟨onceHere, onceInRest⟩ := List.forall_mem_cons.mp once
      rw [List.flatten_cons, countOf_append, onceHere, inductionHypothesis onceInRest,
        List.length_cons, Nat.add_comm]

namespace Situation

variable
  [DecidableEq σ]
  [DecidableEq ε]
  {table : Table σ ε}
  {event : ε}
  {refusal : φ}
  {change : δ → Except φ δ}
  {situation : Situation σ ε δ}

/-- An event is refused where it may not happen, or fails in what it changes. -/
theorem fire_eq_error
    {fault : φ}
    (failed : situation.fire table event refusal change = .error fault) :
    (table.get? (situation.state, event) = none ∧ fault = refusal) ∨
      ∃ target,
        table.get? (situation.state, event) = some target ∧
          change situation.contents = .error fault := by
  unfold fire at failed
  cases lookup : table.get? (situation.state, event) with
  | none =>
      simp only [lookup, Except.error.injEq] at failed
      exact .inl ⟨rfl, failed.symm⟩
  | some target =>
      cases changed : change situation.contents with
      | ok contents => simp [lookup, changed] at failed
      | error inside =>
          simp only [lookup, changed, Except.error.injEq] at failed
          rw [failed]
          exact .inr ⟨target, rfl, rfl⟩

end Situation

end DocAudit.Machine
