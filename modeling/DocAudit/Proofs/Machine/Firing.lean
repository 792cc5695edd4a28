import Mathlib.Data.List.Chain
import DocAudit.Proofs.Machine.Work

namespace DocAudit.Machine

/-!
# Firing is all or nothing

A fire whose chain comes to an end either completes all fires of the chain or none.
If it completes them, they move in turn, the innermost one first, and the machine ends
in the target that the table has for the first event, wherever the handlers have put
it in between. If one of them is refused, or its handler raises, the machine stays
where it was. Every look-up takes place in the state in which the first event was
fired: this is shown of a machine at work, which looks up in the one state that it
has. The main statement is `fire_settles`.
-/

/-- A fire that was completed, with all fires of its chain. -/
structure Completed
    (blueprint : Blueprint)
    (state event : Member)
    (chain : List Member)
    (target : Member)
    (step : Step α) : Prop where
  known : blueprint.transitions.get? (state, event) = some target
  returns : step.outcome = .ok (some target)
  lands : step.state = target
  innermostFirst : step.moves.map Move.event = chain.reverse
  ownLast : ∃ source, step.moves.getLast? = some ⟨event, source, target⟩
  toTargets :
    ∀ move ∈ step.moves,
      blueprint.transitions.get? (state, move.event) = some move.target
  linked :
    step.moves.IsChain fun earlier later => later.source = earlier.target
  noneRaises :
    ∀ fired ∈ chain, ∀ text, blueprint.handlers.get? fired ≠ some (.fail text)

/-- A fire that a failure has prevented, with all fires of its chain. -/
structure Abandoned
    (blueprint : Blueprint)
    (state : Member)
    (chain : List Member)
    (failure : Failure)
    (step : Step α) : Prop where
  raises : step.outcome = .error failure
  stays : step.state = state
  silent : step.moves = []
  cause :
    ∃ fired,
      chain.getLast? = some fired ∧
        (blueprint.transitions.get? (state, fired) = none ∧
            failure = .invalidEvent fired state ∨
          ∃ text,
            blueprint.handlers.get? fired = some (.fail text) ∧
              failure = .raised text)

section Settling

variable
  {blueprint : Blueprint}
  {state event target inner : Member}
  {chain rest : List Member}

theorem Completed.nested
    {answer : Member}
    {step : Step α}
    (completed : Completed blueprint state inner rest answer step)
    (known : blueprint.transitions.get? (state, event) = some target)
    (nests : blueprint.handlers.get? event = some (.fire inner))
    (call : Call α) :
    Completed blueprint state event (event :: rest) target
      ((step.calledBy call).commit event target) := by
  have answered : (step.calledBy call).outcome = .ok (some answer) :=
    completed.returns
  rw [Step.commit_of_ok answered]
  exact
    { known := known
      returns := rfl
      lands := rfl
      innermostFirst := by
        simp [Step.calledBy, completed.innermostFirst]
      ownLast := ⟨step.state, List.getLast?_concat⟩
      toTargets := by
        intro move member
        rcases List.mem_append.mp member with earlier | isOwn
        · exact completed.toTargets move earlier
        · rw [List.mem_singleton.mp isOwn]
          exact known
      linked := by
        -- The last move of the handler ends where the handler has left the machine.
        obtain ⟨source, last⟩ := completed.ownLast
        refine List.isChain_append.mpr ⟨completed.linked, .singleton _, ?_⟩
        intro earlier isLast later isOwn
        have isAnswer : earlier = ⟨inner, source, answer⟩ :=
          Option.some.inj (isLast.symm.trans last)
        cases isOwn
        rw [isAnswer]
        exact completed.lands
      noneRaises := by
        intro fired member text
        rcases List.mem_cons.mp member with isOwn | inRest
        · simp [isOwn, nests]
        · exact completed.noneRaises fired inRest text }

theorem Abandoned.nested
    {failure : Failure}
    {step : Step α}
    (abandoned : Abandoned blueprint state rest failure step)
    (call : Call α) :
    Abandoned blueprint state (event :: rest) failure
      ((step.calledBy call).commit event target) := by
  have failed : (step.calledBy call).outcome = .error failure :=
    abandoned.raises
  rw [Step.commit_of_error failed]
  obtain ⟨fired, isLast, cause⟩ := abandoned.cause
  exact
    { raises := failed
      stays := abandoned.stays
      silent := abandoned.silent
      cause := ⟨fired, by simp [List.getLast?_cons, isLast], cause⟩ }

/-- A handler that fires nothing moves nothing; it fails only when it raises. -/
theorem handle_of_last
    (ends : ∀ inner, blueprint.handlers.get? event ≠ some (.fire inner))
    (state : Member)
    (arguments : List α)
    (fire : Member → Step α) :
    (blueprint.handle state event arguments fire).moves = [] ∧
      ((blueprint.handle state event arguments fire).outcome = .ok none ∧
          (∀ text, blueprint.handlers.get? event ≠ some (.fail text)) ∨
        ∃ text,
          blueprint.handlers.get? event = some (.fail text) ∧
            (blueprint.handle state event arguments fire).outcome =
              .error (.raised text) ∧
            (blueprint.handle state event arguments fire).state = state) := by
  unfold Blueprint.handle
  cases handler : blueprint.handlers.get? event with
  | none => simp [Step.quiet]
  | some reaction =>
      cases reaction with
      | record => simp [Blueprint.react, Step.calledBy, Step.quiet]
      | fail text => simp [Blueprint.react, Step.calledBy, Step.failed]
      | fire inner => exact (ends inner handler).elim
      | restore state? => simp [Blueprint.react, Step.calledBy, Step.quiet]

/-- A fire whose chain comes to an end is completed or abandoned, if there is fuel for it. -/
theorem settles_fireWithin
    (finite : blueprint.Chain state event chain)
    {fuel : Nat}
    (enough : chain.length ≤ fuel)
    (arguments : List α) :
    (∃ target,
        Completed blueprint state event chain target
          (blueprint.fireWithin fuel state event arguments)) ∨
      ∃ failure,
        Abandoned blueprint state chain failure
          (blueprint.fireWithin fuel state event arguments) := by
  induction finite generalizing fuel arguments with
  | @refused event unknown =>
      obtain ⟨fuel, rfl⟩ := Nat.exists_eq_add_of_le' enough
      rw [List.length_singleton, Blueprint.fireWithin_of_unknown unknown]
      exact
        .inr
          ⟨_,
            { raises := rfl
              stays := rfl
              silent := rfl
              cause := ⟨event, rfl, .inl ⟨unknown, rfl⟩⟩ }⟩
  | @last event target known ends =>
      obtain ⟨fuel, rfl⟩ := Nat.exists_eq_add_of_le' enough
      rw [List.length_singleton, Blueprint.fireWithin_of_known known]
      obtain ⟨silent, ⟨answered, noneRaises⟩ | ⟨text, raises, failed, stays⟩⟩ :=
        handle_of_last ends state arguments fun inner =>
          blueprint.fireWithin fuel state inner []
      · rw [Step.commit_of_ok answered, silent]
        exact
          .inl
            ⟨target,
              { known := known
                returns := rfl
                lands := rfl
                innermostFirst := rfl
                ownLast := ⟨_, rfl⟩
                toTargets := by simpa using known
                linked := .singleton _
                noneRaises := by simpa using noneRaises }⟩
      · rw [Step.commit_of_error failed]
        exact
          .inr
            ⟨_,
              { raises := failed
                stays := stays
                silent := silent
                cause := ⟨event, rfl, .inr ⟨text, raises, rfl⟩⟩ }⟩
  | @nested event target inner rest known nests _ inductionHypothesis =>
      obtain ⟨fuel, rfl⟩ := Nat.exists_eq_add_of_le' enough
      rw [List.length_cons, ← Nat.add_assoc, Blueprint.fireWithin_of_known known,
        Blueprint.handle_of_fire nests]
      rcases inductionHypothesis (Nat.le_add_left _ fuel) [] with
          ⟨answer, completed⟩ | ⟨failure, abandoned⟩
      · exact .inl ⟨target, completed.nested known nests _⟩
      · exact .inr ⟨failure, abandoned.nested _⟩

end Settling

/-- Without fuel for a chain that does not come to an end, firing is given up. -/
theorem exists_chain_or_endless
    (blueprint : Blueprint)
    (fuel : Nat)
    (state event : Member)
    (arguments : List α) :
    (∃ chain, blueprint.Chain state event chain) ∨
      ∃ fired,
        (blueprint.fireWithin fuel state event arguments).outcome =
          .error (.endless fired) := by
  induction fuel generalizing event arguments with
  | zero => exact .inr ⟨event, rfl⟩
  | succ fuel inductionHypothesis =>
      cases known : blueprint.transitions.get? (state, event) with
      | none => exact .inl ⟨_, .refused known⟩
      | some target =>
          by_cases nested : ∃ inner, blueprint.handlers.get? event = some (.fire inner)
          · obtain ⟨inner, nests⟩ := nested
            rcases inductionHypothesis inner [] with ⟨rest, finite⟩ | ⟨fired, endless⟩
            · exact .inl ⟨_, .nested known nests finite⟩
            · have failed :
                  ((blueprint.fireWithin fuel state inner []).calledBy
                      ⟨.fire inner, arguments⟩).outcome =
                    .error (.endless fired) :=
                endless
              refine .inr ⟨fired, ?_⟩
              rw [Blueprint.fireWithin_of_known known, Blueprint.handle_of_fire nests,
                Step.commit_of_error failed]
              exact failed
          · exact .inl ⟨_, .last known fun inner nests => nested ⟨inner, nests⟩⟩

namespace Built

/-- Firing is given up exactly when no chain of the event comes to an end. -/
theorem fire_endless_iff
    (machine : Built)
    (state event : Member)
    (arguments : List α) :
    (∃ fired,
        (machine.fire state event arguments).outcome = .error (.endless fired)) ↔
      ∀ chain, ¬ machine.blueprint.Chain state event chain := by
  constructor
  · rintro ⟨fired, endless⟩ chain finite
    rcases settles_fireWithin finite finite.length_le arguments with
        ⟨target, completed⟩ | ⟨failure, abandoned⟩
    · cases completed.returns.symm.trans endless
    · obtain ⟨last, _, ⟨_, refusal⟩ | ⟨text, _, raised⟩⟩ := abandoned.cause
      · rw [refusal] at abandoned
        cases abandoned.raises.symm.trans endless
      · rw [raised] at abandoned
        cases abandoned.raises.symm.trans endless
  · intro unending
    rcases exists_chain_or_endless machine.blueprint
        (machine.blueprint.handlers.entries.length + 1) state event arguments with
        ⟨chain, finite⟩ | endless
    · exact (unending chain finite).elim
    · exact endless

/--
A fire whose chain comes to an end is completed or abandoned. Completed, it answers the
target that the table has for its event and leaves the machine there, after one move
for each event of the chain, the innermost one first, each from where the one before
has ended. Abandoned, because an event of the chain is refused or its handler raises,
it moves nothing and leaves the machine where it was. A machine at work gets to the
same end, and looks up every event of the chain in the state in which it began.
-/
theorem fire_settles
    (machine : Built)
    {state event : Member}
    {chain : List Member}
    (finite : machine.blueprint.Chain state event chain)
    (arguments : List α) :
    Work.Reaches machine.blueprint
        (.begin state event arguments)
        (.halted (chain.map (Prod.mk state)) (machine.fire state event arguments)) ∧
      ((∃ target,
          Completed machine.blueprint state event chain target
            (machine.fire state event arguments)) ∨
        ∃ failure,
          Abandoned machine.blueprint state chain failure
            (machine.fire state event arguments)) :=
  ⟨Work.reaches_settle finite finite.length_le rfl rfl,
    settles_fireWithin finite finite.length_le arguments⟩

end Built

namespace Relay

def idle : Member := ⟨.state, "idle"⟩

def busy : Member := ⟨.state, "busy"⟩

def done : Member := ⟨.state, "done"⟩

def start : Member := ⟨.event, "start"⟩

def finish : Member := ⟨.event, "finish"⟩

/-- The handler of one event fires another one, whose handler restores a third state. -/
def blueprint : Blueprint where
  events := ["start", "finish"]
  transitions := .ofList [((idle, start), busy), ((idle, finish), done)]
  handlers := .ofList [(start, .fire finish), (finish, .restore (some busy))]
  initial := idle

def machine : Built where
  blueprint := blueprint
  sound := by decide

theorem finite_start : blueprint.Chain idle start [start, finish] := by
  have known : blueprint.transitions.get? (idle, start) = some busy := by decide
  have alsoKnown : blueprint.transitions.get? (idle, finish) = some done := by decide
  have nests : blueprint.handlers.get? start = some (.fire finish) := by decide
  have restores : blueprint.handlers.get? finish = some (.restore (some busy)) := by
    decide
  refine .nested known nests (.last alsoKnown ?_)
  intro inner fires
  cases restores.symm.trans fires

/-- The inner event moves first, from the restored state, and the outer one moves on. -/
theorem fire_settles_start :
    blueprint.Chain idle start [start, finish] ∧
      Completed blueprint idle start [start, finish] busy
        (machine.fire idle start ([] : List Nat)) := by
  obtain ⟨_, ⟨target, completed⟩ | ⟨failure, abandoned⟩⟩ :=
    machine.fire_settles finite_start ([] : List Nat)
  · have isBusy : busy = target := Option.some.inj completed.known
    rw [isBusy]
    exact ⟨finite_start, completed⟩
  · cases abandoned.raises

/-- The lines tell both moves, the one of the fired event first. -/
example :
    (machine.fire idle start ([] : List Nat)).log =
      ["finish: busy -> done", "start: done -> busy"] :=
  rfl

end Relay

end DocAudit.Machine
