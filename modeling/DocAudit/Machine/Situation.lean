import DocAudit.OrderedMap
import DocAudit.Machine.Move

namespace DocAudit.Machine

/-!
# Machines with contents

A transition table says to which state an event leads from each state. A machine
with contents pairs its state with the moves it has made and with data that the
events change. Firing an event looks the table up first, changes the contents
second and moves last, so an event that cannot be completed leaves nothing
behind.
-/

/-- A transition table: at most one target for each state and event. -/
abbrev Table (σ ε : Type) :=
  OrderedMap (σ × ε) σ

/-- Where a machine stands: its state, the moves made so far, and its contents. -/
structure Situation (σ ε δ : Type) where
  state : σ
  moves : List (Move σ ε)
  contents : δ
  deriving Repr, DecidableEq

namespace Situation

/-- A machine that has not moved yet. -/
def initial
    (state : σ)
    (contents : δ) :
    Situation σ ε δ where
  state := state
  moves := []
  contents := contents

/-- Change the contents without moving. -/
def update
    (situation : Situation σ ε δ)
    (change : δ → δ) :
    Situation σ ε δ :=
  { situation with contents := change situation.contents }

/--
Fire an event. A table without an entry for the present state and the event
answers `refusal`; otherwise the contents change, unless `change` fails, and the
move is recorded.
-/
def fire
    [DecidableEq σ]
    [DecidableEq ε]
    (situation : Situation σ ε δ)
    (table : Table σ ε)
    (event : ε)
    (refusal : φ)
    (change : δ → Except φ δ) :
    Except φ (Situation σ ε δ) :=
  match table.get? (situation.state, event) with
  | none => .error refusal
  | some target =>
      match change situation.contents with
      | .error fault => .error fault
      | .ok contents =>
          .ok
            { state := target
              moves := situation.moves ++ [⟨event, situation.state, target⟩]
              contents := contents }

/-- A fired event moved along an entry of the table and changed the contents. -/
theorem fire_eq_ok
    [DecidableEq σ]
    [DecidableEq ε]
    {table : Table σ ε}
    {event : ε}
    {refusal : φ}
    {change : δ → Except φ δ}
    {situation next : Situation σ ε δ}
    (fired : situation.fire table event refusal change = .ok next) :
    ∃ target contents,
      table.get? (situation.state, event) = some target ∧
        change situation.contents = .ok contents ∧
          next =
            { state := target
              moves := situation.moves ++ [⟨event, situation.state, target⟩]
              contents := contents } := by
  unfold fire at fired
  cases lookup : table.get? (situation.state, event) with
  | none => simp [lookup] at fired
  | some target =>
      cases changed : change situation.contents with
      | error fault => simp [lookup, changed] at fired
      | ok contents =>
          simp only [lookup, changed, Except.ok.injEq] at fired
          exact ⟨target, contents, rfl, rfl, fired.symm⟩

end Situation

end DocAudit.Machine
