import DocAudit.Machine.Built

namespace DocAudit.Machine

/-!
# Machines at work

A machine at work has one current state, which all fires of a chain read and
overwrite: each one looks its target up in it, a handler may set it, and a completed
fire moves it. A fire that waits for its handler is kept as a frame with the target
that it has looked up, so a handler that fires another event puts a frame on top. A
failure takes the frames away one by one and moves nothing.
-/

/-- A fire that has looked up its target and waits for its handler. -/
structure Frame where
  event : Member
  target : Member
  deriving Repr, DecidableEq

/-- What a machine does next: start a fire, run a handler, or answer the frame on top. -/
inductive Task (α : Type) where
  | fire (event : Member) (arguments : List α)
  | handle (event : Member) (arguments : List α)
  | answer (outcome : Except Failure (Option Member))

/--
A machine at work. The states and events that were looked up, the handlers that ran
and the completed moves are kept in order.
-/
structure Work (α : Type) where
  task : Task α
  frames : List Frame
  current : Member
  lookups : List (Member × Member)
  calls : List (Call α)
  moves : List (Move Member Member)

namespace Work

/-- A machine that begins to fire an event in a state. -/
def begin
    (state event : Member)
    (arguments : List α) :
    Work α where
  task := .fire event arguments
  frames := []
  current := state
  lookups := []
  calls := []
  moves := []

/-- A machine that has done what a step tells. -/
def halted
    (lookups : List (Member × Member))
    (step : Step α) :
    Work α where
  task := .answer step.outcome
  frames := []
  current := step.state
  lookups := lookups
  calls := step.calls
  moves := step.moves

/-- Look up the target of an event in the current state. -/
def lookUp
    (work : Work α)
    (blueprint : Blueprint)
    (event : Member)
    (arguments : List α) :
    Work α :=
  let asked : Work α :=
    { work with lookups := work.lookups ++ [(work.current, event)] }
  match blueprint.transitions.get? (work.current, event) with
  | none => { asked with task := .answer (.error (.invalidEvent event work.current)) }
  | some target =>
      { asked with
        task := .handle event arguments
        frames := ⟨event, target⟩ :: work.frames }

/-- Do what a reaction says. -/
def react
    (work : Work α)
    (blueprint : Blueprint) :
    Reaction → Work α
  | .record => { work with task := .answer (.ok none) }
  | .fail text => { work with task := .answer (.error (.raised text)) }
  | .fire inner => { work with task := .fire inner [] }
  | .restore state? =>
      { work with
        task := .answer (.ok none)
        current := blueprint.restored state? }

/-- Run the handler of an event, if it has one. -/
def handle
    (work : Work α)
    (blueprint : Blueprint)
    (event : Member)
    (arguments : List α) :
    Work α :=
  match blueprint.handlers.get? event with
  | none => { work with task := .answer (.ok none) }
  | some reaction =>
      let called : Work α :=
        { work with calls := work.calls ++ [⟨reaction, arguments⟩] }
      called.react blueprint reaction

/-- Take away the frame on top, and move to its target unless its handler failed. -/
def leave
    (work : Work α)
    (frame : Frame)
    (below : List Frame) :
    Except Failure (Option Member) → Work α
  | .error _ => { work with frames := below }
  | .ok _ =>
      { work with
        task := .answer (.ok (some frame.target))
        frames := below
        current := frame.target
        moves := work.moves ++ [⟨frame.event, work.current, frame.target⟩] }

/-- The next thing that a machine does, unless its work is done. -/
def next?
    (work : Work α)
    (blueprint : Blueprint) :
    Option (Work α) :=
  match work.task with
  | .fire event arguments => some (work.lookUp blueprint event arguments)
  | .handle event arguments => some (work.handle blueprint event arguments)
  | .answer outcome =>
      match work.frames with
      | [] => none
      | frame :: below => some (work.leave frame below outcome)

end Work

end DocAudit.Machine
