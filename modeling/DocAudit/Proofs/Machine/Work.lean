import Mathlib.Logic.Relation
import DocAudit.Machine.Work
import DocAudit.Proofs.Machine.Chain

namespace DocAudit.Machine.Work

/-!
# Machines at work halt with what they are asked for

A machine at work that is about to fire an event gets, one thing after the other, to
where firing the event leads, with the frames below untouched. It has then looked up
the events of the chain, all of them in the state in which the first one was fired:
nothing has been moved or restored while the chain still grows.
-/

/-- Where a machine at work gets, one thing after the other. -/
abbrev Reaches (blueprint : Blueprint) : Work α → Work α → Prop :=
  Relation.ReflTransGen fun work next => work.next? blueprint = some next

/-- A machine that has looked up some events and done what a step tells. -/
def settle
    (work : Work α)
    (looked : List (Member × Member))
    (step : Step α) :
    Work α where
  task := .answer step.outcome
  frames := work.frames
  current := step.state
  lookups := work.lookups ++ looked
  calls := work.calls ++ step.calls
  moves := work.moves ++ step.moves

/-- A machine that waits for the handler of an event. -/
def opened
    (work : Work α)
    (event target : Member)
    (arguments : List α) :
    Work α :=
  { work with
    task := .handle event arguments
    frames := ⟨event, target⟩ :: work.frames
    lookups := work.lookups ++ [(work.current, event)] }

/-- A machine whose handler fires another event. -/
def called
    (work : Work α)
    (inner : Member)
    (arguments : List α) :
    Work α :=
  { work with
    task := .fire inner []
    calls := work.calls ++ [⟨.fire inner, arguments⟩] }

variable
  {blueprint : Blueprint}
  {event target : Member}

theorem lookUp_of_unknown
    {work : Work α}
    (unknown : blueprint.transitions.get? (work.current, event) = none)
    (arguments : List α) :
    work.lookUp blueprint event arguments =
      work.settle [(work.current, event)]
        (.failed work.current (.invalidEvent event work.current)) := by
  simp [lookUp, unknown, settle, Step.failed]

theorem lookUp_of_known
    {work : Work α}
    (known : blueprint.transitions.get? (work.current, event) = some target)
    (arguments : List α) :
    work.lookUp blueprint event arguments = work.opened event target arguments := by
  simp [lookUp, known, opened]

theorem next?_of_fire
    {work : Work α}
    {arguments : List α}
    (ready : work.task = .fire event arguments) :
    work.next? blueprint = some (work.lookUp blueprint event arguments) := by
  simp only [next?, ready]

theorem next?_opened
    (work : Work α)
    (blueprint : Blueprint)
    (event target : Member)
    (arguments : List α) :
    (work.opened event target arguments).next? blueprint =
      some ((work.opened event target arguments).handle blueprint event arguments) :=
  rfl

/-- A handler that fires nothing is done at once. -/
theorem handle_of_last
    (ends : ∀ inner, blueprint.handlers.get? event ≠ some (.fire inner))
    (work : Work α)
    (arguments : List α)
    (fire : Member → Step α) :
    work.handle blueprint event arguments =
      work.settle [] (blueprint.handle work.current event arguments fire) := by
  unfold handle Blueprint.handle
  cases handler : blueprint.handlers.get? event with
  | none => simp [settle, Step.quiet]
  | some reaction =>
      cases reaction with
      | record => simp [react, Blueprint.react, settle, Step.calledBy, Step.quiet]
      | fail text => simp [react, Blueprint.react, settle, Step.calledBy, Step.failed]
      | fire inner => exact (ends inner handler).elim
      | restore state? =>
          simp [react, Blueprint.react, settle, Step.calledBy, Step.quiet]

theorem handle_of_fire
    {inner : Member}
    (nests : blueprint.handlers.get? event = some (.fire inner))
    (work : Work α)
    (arguments : List α) :
    work.handle blueprint event arguments = work.called inner arguments := by
  simp [handle, nests, react, called]

/-- What the fired event does is what the handler does. -/
theorem settle_called
    (work : Work α)
    (inner : Member)
    (arguments : List α)
    (looked : List (Member × Member))
    (step : Step α) :
    (work.called inner arguments).settle looked step =
      work.settle looked (step.calledBy ⟨.fire inner, arguments⟩) := by
  simp [called, settle, Step.calledBy]

/-- The frame on top is left with the move of its event, or without it if a handler failed. -/
theorem next?_settle_opened
    (work : Work α)
    (arguments : List α)
    (looked : List (Member × Member))
    (handled : Step α) :
    ((work.opened event target arguments).settle looked handled).next? blueprint =
      some
        (work.settle ((work.current, event) :: looked)
          (handled.commit event target)) := by
  cases outcome : handled.outcome with
  | ok answer? =>
      simp [next?, settle, opened, leave, outcome, Step.commit_of_ok outcome]
  | error failure =>
      simp [next?, settle, opened, leave, outcome, Step.commit_of_error outcome]

/--
A machine that is about to fire an event gets to where firing it leads, after it has
looked up the events of the chain in the state in which it stands now.
-/
theorem reaches_settle
    {state : Member}
    {chain : List Member}
    (finite : blueprint.Chain state event chain)
    {fuel : Nat}
    (enough : chain.length ≤ fuel)
    {work : Work α}
    {arguments : List α}
    (ready : work.task = .fire event arguments)
    (stands : work.current = state) :
    Reaches blueprint work
      (work.settle (chain.map (Prod.mk state))
        (blueprint.fireWithin fuel state event arguments)) := by
  induction finite generalizing fuel work arguments with
  | @refused event unknown =>
      obtain ⟨fuel, rfl⟩ := Nat.exists_eq_add_of_le' enough
      subst stands
      rw [List.length_singleton, Blueprint.fireWithin_of_unknown unknown]
      apply Relation.ReflTransGen.single
      rw [next?_of_fire ready, lookUp_of_unknown unknown]
      rfl
  | @last event target known ends =>
      obtain ⟨fuel, rfl⟩ := Nat.exists_eq_add_of_le' enough
      subst stands
      rw [List.length_singleton, Blueprint.fireWithin_of_known known]
      have opens : work.next? blueprint = some (work.opened event target arguments) := by
        rw [next?_of_fire ready, lookUp_of_known known]
      have handles :=
        (next?_opened work blueprint event target arguments).trans
          (congrArg some
            (handle_of_last ends (work.opened event target arguments) arguments
              fun inner => blueprint.fireWithin fuel work.current inner []))
      exact .head opens (.head handles (.single (next?_settle_opened work arguments [] _)))
  | @nested event target inner rest known nests _ inductionHypothesis =>
      obtain ⟨fuel, rfl⟩ := Nat.exists_eq_add_of_le' enough
      subst stands
      rw [List.length_cons, ← Nat.add_assoc, Blueprint.fireWithin_of_known known,
        Blueprint.handle_of_fire nests]
      have opens : work.next? blueprint = some (work.opened event target arguments) := by
        rw [next?_of_fire ready, lookUp_of_known known]
      have handles :=
        (next?_opened work blueprint event target arguments).trans
          (congrArg some
            (handle_of_fire nests (work.opened event target arguments) arguments))
      -- Nothing has moved the machine yet, so the inner event is looked up where it stands.
      have fires :
          Reaches blueprint
            ((work.opened event target arguments).called inner arguments)
            (((work.opened event target arguments).called inner arguments).settle
              (rest.map (Prod.mk work.current))
              (blueprint.fireWithin (fuel + rest.length) work.current inner [])) :=
        inductionHypothesis (Nat.le_add_left _ fuel) rfl rfl
      rw [settle_called] at fires
      exact
        .head opens
          (.head handles (fires.tail (next?_settle_opened work arguments _ _)))

end DocAudit.Machine.Work
