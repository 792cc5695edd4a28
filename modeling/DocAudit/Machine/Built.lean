import DocAudit.Machine.Blueprint
import DocAudit.Machine.Move

namespace DocAudit.Machine

/-!
# Built machines

A built machine runs a sound blueprint. Firing an event looks up the target
first, runs the handler of the event second, and moves last. The handler may fire
another event or set the state, so the move starts wherever the handler left the
machine, and still ends in the target that was looked up. A handler that fails
prevents the move.
-/

/-- A machine whose blueprint has no defect. -/
structure Built where
  blueprint : Blueprint
  sound : blueprint.defect? = none

/-- Build a machine, or report the first defect of its blueprint. -/
def Blueprint.build (blueprint : Blueprint) : Except Defect Built :=
  match sound : blueprint.defect? with
  | some defect => .error defect
  | none => .ok ⟨blueprint, sound⟩

/-- Why an event was not completed. -/
inductive Failure where
  | invalidEvent (event state : Member)
  | raised (text : String)
  | endless (event : Member)
  deriving Repr, DecidableEq

/-- The message that reports a failure. -/
def Failure.message : Failure → String
  | .invalidEvent event state => s!"{event.label} in {state.label}"
  | .raised text => text
  | .endless event => s!"{event.label} is fired without end"

/-- A handler that ran, with the arguments it was given. -/
structure Call (α : Type) where
  reaction : Reaction
  arguments : List α
  deriving Repr, DecidableEq

/--
What one operation did: its outcome, the state after it, the handlers that ran in
the order in which they started, and the completed moves.
-/
structure Step (α : Type) where
  outcome : Except Failure (Option Member)
  state : Member
  calls : List (Call α)
  moves : List (Move Member Member)

namespace Step

/-- Nothing happened in a state. -/
def quiet (state : Member) : Step α where
  outcome := .ok none
  state := state
  calls := []
  moves := []

/-- An operation failed in a state before anything happened. -/
def failed
    (state : Member)
    (failure : Failure) :
    Step α where
  outcome := .error failure
  state := state
  calls := []
  moves := []

/-- Put the call of a handler in front of what it did. -/
def calledBy
    (step : Step α)
    (call : Call α) :
    Step α :=
  { step with calls := call :: step.calls }

/-- Complete a move unless the handler before it failed. -/
def commit
    (step : Step α)
    (event target : Member) :
    Step α :=
  match step.outcome with
  | .error _ => step
  | .ok _ =>
      { step with
        outcome := .ok (some target)
        state := target
        moves := step.moves ++ [⟨event, step.state, target⟩] }

/-- A move is completed behind the moves of the handler, from where the handler ended. -/
theorem commit_of_ok
    {step : Step α}
    {event target : Member}
    {answer? : Option Member}
    (handled : step.outcome = .ok answer?) :
    step.commit event target =
      { outcome := .ok (some target)
        state := target
        calls := step.calls
        moves := step.moves ++ [⟨event, step.state, target⟩] } := by
  simp only [commit, handled]

/-- A handler that failed prevents the move. -/
theorem commit_of_error
    {step : Step α}
    {event target : Member}
    {failure : Failure}
    (failed : step.outcome = .error failure) :
    step.commit event target = step := by
  simp only [commit, failed]

/-- The lines that report the moves of a step. -/
def log (step : Step α) : List String :=
  step.moves.map (Move.line Member.name Member.name)

end Step

namespace Blueprint

/-- What a reaction does in a state, where `fire` tells what firing an event does there. -/
def react
    (blueprint : Blueprint)
    (state : Member)
    (fire : Member → Step α) :
    Reaction → Step α
  | .record => .quiet state
  | .fail text => .failed state (.raised text)
  | .fire inner => fire inner
  | .restore state? => .quiet (blueprint.restored state?)

/-- What the handler of an event does in a state; an event without handler does nothing. -/
def handle
    (blueprint : Blueprint)
    (state event : Member)
    (arguments : List α)
    (fire : Member → Step α) :
    Step α :=
  match blueprint.handlers.get? event with
  | none => .quiet state
  | some reaction =>
      (blueprint.react state fire reaction).calledBy ⟨reaction, arguments⟩

/--
Fire an event in a state, where handlers may fire further events to a depth below
`fuel`.
-/
def fireWithin
    (blueprint : Blueprint)
    (fuel : Nat)
    (state event : Member)
    (arguments : List α) :
    Step α :=
  match fuel with
  | 0 => .failed state (.endless event)
  | fuel + 1 =>
      match blueprint.transitions.get? (state, event) with
      | none => .failed state (.invalidEvent event state)
      | some target =>
          let handled : Step α :=
            blueprint.handle state event arguments fun inner =>
              blueprint.fireWithin fuel state inner []
          handled.commit event target

variable
  {blueprint : Blueprint}
  {state event : Member}

theorem handle_of_fire
    {inner : Member}
    (nests : blueprint.handlers.get? event = some (.fire inner))
    (arguments : List α)
    (fire : Member → Step α) :
    blueprint.handle state event arguments fire =
      (fire inner).calledBy ⟨.fire inner, arguments⟩ := by
  simp only [handle, nests, react]

theorem fireWithin_of_unknown
    (unknown : blueprint.transitions.get? (state, event) = none)
    (fuel : Nat)
    (arguments : List α) :
    blueprint.fireWithin (fuel + 1) state event arguments =
      .failed state (.invalidEvent event state) := by
  simp only [fireWithin, unknown]

theorem fireWithin_of_known
    {target : Member}
    (known : blueprint.transitions.get? (state, event) = some target)
    (fuel : Nat)
    (arguments : List α) :
    blueprint.fireWithin (fuel + 1) state event arguments =
      (blueprint.handle state event arguments fun inner =>
        blueprint.fireWithin fuel state inner []).commit event target := by
  simp only [fireWithin, known]

end Blueprint

/-- What can be asked of a machine. -/
inductive Operation (α : Type) where
  | fire (event : Member) (arguments : List α)
  | restore (state? : Option Member)
  deriving Repr, DecidableEq

namespace Built

/--
Fire an event. A chain of handlers that fire each other visits every handler at
most once unless it goes on forever, so the number of handlers bounds its depth.
-/
def fire
    (machine : Built)
    (state event : Member)
    (arguments : List α) :
    Step α :=
  machine.blueprint.fireWithin
    (machine.blueprint.handlers.entries.length + 1)
    state
    event
    arguments

/-- Set the state, by default to the initial one, without firing anything. -/
def restore
    (machine : Built)
    (state? : Option Member) :
    Step α :=
  .quiet (machine.blueprint.restored state?)

/-- Perform one operation in a state. -/
def perform
    (machine : Built)
    (state : Member) :
    Operation α → Step α
  | .fire event arguments => machine.fire state event arguments
  | .restore state? => machine.restore state?

/-- Perform operations in a row from a state on. -/
def performAll
    (machine : Built)
    (state : Member) :
    List (Operation α) → List (Step α)
  | [] => []
  | operation :: rest =>
      let step := machine.perform state operation
      step :: machine.performAll step.state rest

/-- Perform operations in a row from the initial state on. -/
def session
    (machine : Built)
    (operations : List (Operation α)) :
    List (Step α) :=
  machine.performAll machine.blueprint.initial operations

end Built

end DocAudit.Machine
