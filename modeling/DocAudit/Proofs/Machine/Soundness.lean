import DocAudit.Proofs.Machine.Firing

namespace DocAudit.Machine

/-!
# Sound blueprints keep their machines in states

A blueprint is sound when the members in its table, its handlers and its initial place
belong to the families that are asked for, and every event occurs in the table. A
machine is built from sound blueprints only, and from any other one the first defect is
reported: the table is looked through before its coverage, the handlers come next and
the initial place last. What the table and the restored members are sound for is that
the machine never leaves its states, whatever it is asked. The main statement is
`build_keeps_states`.
-/

namespace Blueprint

/-- An entry of the transition table whose members belong to the families of their places. -/
structure Fits
    (blueprint : Blueprint)
    (entry : (Member × Member) × Member) : Prop where
  source : entry.1.1.family = blueprint.stateFamily
  target : entry.2.family = blueprint.stateFamily
  event : entry.1.2.family = blueprint.eventFamily

/-- An event occurs in an entry of the transition table. -/
def Uses
    (blueprint : Blueprint)
    (name : String) : Prop :=
  ∃ entry ∈ blueprint.transitions.entries,
    entry.1.2 = ⟨blueprint.eventFamily, name⟩

instance
    (blueprint : Blueprint)
    (name : String) :
    Decidable (blueprint.Uses name) :=
  inferInstanceAs (Decidable (∃ entry ∈ blueprint.transitions.entries, _))

/-- A blueprint without defect. -/
structure Sound (blueprint : Blueprint) : Prop where
  transitions : ∀ entry ∈ blueprint.transitions.entries, blueprint.Fits entry
  events : ∀ name ∈ blueprint.events, blueprint.Uses name
  handlers :
    ∀ entry ∈ blueprint.handlers.entries, entry.1.family = blueprint.eventFamily
  initial : blueprint.initial.family = blueprint.stateFamily

/--
The first defect of a blueprint: an entry of the table that does not fit, all events
that no entry mentions, a handler of what is no event, or an initial place that is no
state, each one only if all that is looked at before is in order.
-/
inductive FirstDefect (blueprint : Blueprint) : Defect → Prop where
  | unknownState
      {before after : List ((Member × Member) × Member)}
      {source event target : Member} :
      blueprint.transitions.entries = before ++ ((source, event), target) :: after →
      (∀ entry ∈ before, blueprint.Fits entry) →
      source.family ≠ blueprint.stateFamily ∨ target.family ≠ blueprint.stateFamily →
      FirstDefect blueprint (.unknownState source event target)
  | unknownEvent
      {before after : List ((Member × Member) × Member)}
      {source event target : Member} :
      blueprint.transitions.entries = before ++ ((source, event), target) :: after →
      (∀ entry ∈ before, blueprint.Fits entry) →
      source.family = blueprint.stateFamily →
      target.family = blueprint.stateFamily →
      event.family ≠ blueprint.eventFamily →
      FirstDefect blueprint (.unknownEvent source event)
  | unusedEvents
      {names : List String} :
      (∀ entry ∈ blueprint.transitions.entries, blueprint.Fits entry) →
      names = (blueprint.events.filter fun name => ¬ blueprint.Uses name) →
      names ≠ [] →
      FirstDefect blueprint (.unusedEvents names)
  | unknownHandler
      {before after : List (Member × Reaction)}
      {event : Member}
      {reaction : Reaction} :
      (∀ entry ∈ blueprint.transitions.entries, blueprint.Fits entry) →
      (∀ name ∈ blueprint.events, blueprint.Uses name) →
      blueprint.handlers.entries = before ++ (event, reaction) :: after →
      (∀ entry ∈ before, entry.1.family = blueprint.eventFamily) →
      event.family ≠ blueprint.eventFamily →
      FirstDefect blueprint (.unknownHandler event)
  | unknownInitial :
      (∀ entry ∈ blueprint.transitions.entries, blueprint.Fits entry) →
      (∀ name ∈ blueprint.events, blueprint.Uses name) →
      (∀ entry ∈ blueprint.handlers.entries,
        entry.1.family = blueprint.eventFamily) →
      blueprint.initial.family ≠ blueprint.stateFamily →
      FirstDefect blueprint (.unknownInitial blueprint.initial)

variable {blueprint : Blueprint}

theorem isState_iff {member : Member} :
    blueprint.isState member = true ↔ member.family = blueprint.stateFamily :=
  decide_eq_true_iff

theorem transitionDefect?_eq_some_iff
    {entry : (Member × Member) × Member}
    {defect : Defect} :
    blueprint.transitionDefect? entry = some defect ↔
      (entry.1.1.family ≠ blueprint.stateFamily ∨
          entry.2.family ≠ blueprint.stateFamily) ∧
        defect = .unknownState entry.1.1 entry.1.2 entry.2 ∨
      entry.1.1.family = blueprint.stateFamily ∧
        entry.2.family = blueprint.stateFamily ∧
        entry.1.2.family ≠ blueprint.eventFamily ∧
        defect = .unknownEvent entry.1.1 entry.1.2 := by
  unfold transitionDefect? isState isEvent
  by_cases sourceFits : entry.1.1.family = blueprint.stateFamily
  · by_cases targetFits : entry.2.family = blueprint.stateFamily
    · by_cases eventFits : entry.1.2.family = blueprint.eventFamily
      · simp [sourceFits, targetFits, eventFits]
      · simp [sourceFits, targetFits, eventFits, eq_comm]
    · simp [sourceFits, targetFits, eq_comm]
  · simp [sourceFits, eq_comm]

theorem transitionDefect?_eq_none_iff
    {entry : (Member × Member) × Member} :
    blueprint.transitionDefect? entry = none ↔ blueprint.Fits entry := by
  constructor
  · intro passes
    unfold transitionDefect? at passes
    split at passes
    · cases passes
    · rename_i statesFit
      split at passes
      · cases passes
      · rename_i eventFits
        simp only [isState, isEvent, Bool.or_eq_true, Bool.not_eq_true',
          decide_eq_false_iff_not, not_or, Classical.not_not] at statesFit eventFits
        exact ⟨statesFit.1, statesFit.2, eventFits⟩
  · intro fits
    simp [transitionDefect?, isState, isEvent, fits.source, fits.target, fits.event]

/-- The unused events are those that no entry of the table mentions, in their order. -/
theorem unusedEvents_eq
    (blueprint : Blueprint) :
    blueprint.unusedEvents =
      blueprint.events.filter fun name => ¬ blueprint.Uses name := by
  unfold unusedEvents
  refine List.filter_congr fun name _ => ?_
  have mentioned :
      ⟨blueprint.eventFamily, name⟩ ∈ blueprint.transitions.keys.map Prod.snd ↔
        blueprint.Uses name := by
    simp [Uses, OrderedMap.keys]
  simp [mentioned]

theorem unusedEvents_eq_nil_iff :
    blueprint.unusedEvents = [] ↔ ∀ name ∈ blueprint.events, blueprint.Uses name := by
  simp [unusedEvents_eq]

theorem handlerDefect?_eq_some_iff
    {entry : Member × Reaction}
    {defect : Defect} :
    blueprint.handlerDefect? entry = some defect ↔
      entry.1.family ≠ blueprint.eventFamily ∧ defect = .unknownHandler entry.1 := by
  unfold handlerDefect? isEvent
  by_cases fits : entry.1.family = blueprint.eventFamily
  · simp [fits]
  · simp [fits, eq_comm]

theorem handlerDefect?_eq_none_iff
    {entry : Member × Reaction} :
    blueprint.handlerDefect? entry = none ↔
      entry.1.family = blueprint.eventFamily := by
  simp [handlerDefect?, isEvent]

/-- The parts of a blueprint are looked at one after the other. -/
theorem defect?_eq_or
    (blueprint : Blueprint) :
    blueprint.defect? =
      (blueprint.transitions.entries.findSome? blueprint.transitionDefect?).or
        ((if blueprint.unusedEvents = [] then
            none
          else
            some (.unusedEvents blueprint.unusedEvents)).or
          ((blueprint.handlers.entries.findSome? blueprint.handlerDefect?).or
            (if blueprint.isState blueprint.initial then
              none
            else
              some (.unknownInitial blueprint.initial)))) := by
  unfold defect?
  split
  · rename_i atEntry
    rw [atEntry, Option.some_or]
  · rename_i tableFits
    rw [tableFits, Option.none_or]
    split
    · rename_i unused
      simp [unused]
    · rename_i covered
      rw [covered, if_pos rfl, Option.none_or]
      split
      · rename_i atHandler
        rw [atHandler, Option.some_or]
      · rename_i handlersFit
        rw [handlersFit, Option.none_or]

theorem defect?_eq_none_iff :
    blueprint.defect? = none ↔ blueprint.Sound := by
  simp only [defect?_eq_or, Option.or_eq_none_iff, List.findSome?_eq_none_iff,
    transitionDefect?_eq_none_iff, handlerDefect?_eq_none_iff, ite_eq_left_iff,
    reduceCtorEq, imp_false, Classical.not_not, unusedEvents_eq_nil_iff, isState_iff]
  constructor
  · rintro ⟨fits, used, handled, initial⟩
    exact ⟨fits, used, handled, initial⟩
  · intro sound
    exact ⟨sound.transitions, sound.events, sound.handlers, sound.initial⟩

theorem defect?_eq_some_iff
    {defect : Defect} :
    blueprint.defect? = some defect ↔ blueprint.FirstDefect defect := by
  simp only [defect?_eq_or, Option.or_eq_some_iff, List.findSome?_eq_none_iff,
    List.findSome?_eq_some_iff, transitionDefect?_eq_none_iff,
    transitionDefect?_eq_some_iff, handlerDefect?_eq_none_iff,
    handlerDefect?_eq_some_iff, ite_eq_left_iff, reduceCtorEq, imp_false,
    Classical.not_not, unusedEvents_eq_nil_iff, Option.ite_none_left_eq_some,
    Option.some.injEq, isState_iff]
  constructor
  · rintro (⟨before, entry, after, isTable, unfit, earlier⟩ | ⟨fits, ⟨someUnused, rfl⟩ |
      ⟨used, ⟨before, entry, after, isMap, ⟨unfit, rfl⟩, earlier⟩ |
        ⟨handled, noState, rfl⟩⟩⟩)
    · rcases unfit with ⟨unfit, rfl⟩ | ⟨sourceFits, targetFits, unfit, rfl⟩
      · exact .unknownState isTable earlier unfit
      · exact .unknownEvent isTable earlier sourceFits targetFits unfit
    · rw [← unusedEvents_eq_nil_iff] at someUnused
      exact .unusedEvents fits blueprint.unusedEvents_eq someUnused
    · exact .unknownHandler fits used isMap earlier unfit
    · exact .unknownInitial fits used handled noState
  · intro first
    cases first with
    | unknownState isTable earlier unfit =>
        exact .inl ⟨_, _, _, isTable, .inl ⟨unfit, rfl⟩, earlier⟩
    | unknownEvent isTable earlier sourceFits targetFits unfit =>
        exact
          .inl
            ⟨_, _, _, isTable, .inr ⟨sourceFits, targetFits, unfit, rfl⟩, earlier⟩
    | unusedEvents fits areUnused someUnused =>
        rw [← unusedEvents_eq] at areUnused
        rw [areUnused] at someUnused ⊢
        rw [← unusedEvents_eq_nil_iff]
        exact .inr ⟨fits, .inl ⟨someUnused, rfl⟩⟩
    | unknownHandler fits used isMap earlier unfit =>
        exact .inr ⟨fits, .inr ⟨used, .inl ⟨_, _, _, isMap, ⟨unfit, rfl⟩, earlier⟩⟩⟩
    | unknownInitial fits used handled unfit =>
        exact .inr ⟨fits, .inr ⟨used, .inr ⟨handled, unfit, rfl⟩⟩⟩

theorem build_eq_error_iff
    {defect : Defect} :
    blueprint.build = .error defect ↔ blueprint.defect? = some defect := by
  unfold build
  split
  · rename_i found first
    simp [first]
  · rename_i passes
    simp [passes]

/-- A machine is built from a blueprint without defect, and runs that blueprint. -/
theorem build_eq_ok_iff
    {machine : Built} :
    blueprint.build = .ok machine ↔ machine.blueprint = blueprint := by
  constructor
  · intro built
    unfold build at built
    split at built
    · cases built
    · cases built
      rfl
  · intro same
    subst same
    unfold build
    split
    · rename_i defect found
      cases machine.sound.symm.trans found
    · rfl

theorem exists_build_iff_sound :
    (∃ machine, blueprint.build = .ok machine) ↔ blueprint.Sound := by
  rw [← defect?_eq_none_iff]
  constructor
  · rintro ⟨machine, built⟩
    rw [← build_eq_ok_iff.mp built]
    exact machine.sound
  · intro passes
    exact ⟨⟨blueprint, passes⟩, build_eq_ok_iff.mpr rfl⟩

/-- What the handlers restore are states. -/
def RestoresStates (blueprint : Blueprint) : Prop :=
  ∀ event state,
    blueprint.handlers.get? event = some (.restore (some state)) →
      state.family = blueprint.stateFamily

namespace Sound

variable
  (sound : blueprint.Sound)
  {state event : Member}

include sound

theorem isState_target
    {target : Member}
    (known : blueprint.transitions.get? (state, event) = some target) :
    target.family = blueprint.stateFamily :=
  (sound.transitions _ (OrderedMap.get?_eq_some_iff.mp known)).target

/-- Restoring a state, or the initial one, leads to a state. -/
theorem isState_restored
    {state? : Option Member}
    (stateOnly :
      ∀ state, state? = some state → state.family = blueprint.stateFamily) :
    (blueprint.restored state?).family = blueprint.stateFamily := by
  cases state? with
  | none => exact sound.initial
  | some state => exact stateOnly state rfl

/-- A handler leaves the machine in a state if what it fires does. -/
theorem isState_handle
    (restores : blueprint.RestoresStates)
    (inState : state.family = blueprint.stateFamily)
    (arguments : List α)
    {fire : Member → Step α}
    (fires : ∀ inner, (fire inner).state.family = blueprint.stateFamily) :
    (blueprint.handle state event arguments fire).state.family =
      blueprint.stateFamily := by
  unfold Blueprint.handle
  cases handler : blueprint.handlers.get? event with
  | none => exact inState
  | some reaction =>
      cases reaction with
      | record => exact inState
      | fail text => exact inState
      | fire inner => exact fires inner
      | restore state? =>
          apply sound.isState_restored
          intro other isOther
          rw [isOther] at handler
          exact restores event other handler

/-- Firing ends in a state, whether it is completed or not, however deep it goes. -/
theorem isState_fireWithin
    (restores : blueprint.RestoresStates)
    (inState : state.family = blueprint.stateFamily)
    (fuel : Nat)
    (arguments : List α) :
    (blueprint.fireWithin fuel state event arguments).state.family =
      blueprint.stateFamily := by
  induction fuel generalizing event arguments with
  | zero => exact inState
  | succ fuel inductionHypothesis =>
      cases known : blueprint.transitions.get? (state, event) with
      | none =>
          rw [fireWithin_of_unknown known]
          exact inState
      | some target =>
          rw [fireWithin_of_known known]
          cases handled :
              (blueprint.handle state event arguments fun inner =>
                blueprint.fireWithin fuel state inner []).outcome with
          | ok answer? =>
              rw [Step.commit_of_ok handled]
              exact sound.isState_target known
          | error failure =>
              rw [Step.commit_of_error handled]
              exact
                sound.isState_handle restores inState arguments fun inner =>
                  inductionHypothesis []

end Sound

end Blueprint

/-- What an operation restores is a state; firing restores nothing by itself. -/
def Operation.RestoresState
    (blueprint : Blueprint) :
    Operation α → Prop
  | .fire _ _ => True
  | .restore state? =>
      ∀ state, state? = some state → state.family = blueprint.stateFamily

namespace Built

variable
  {machine : Built}
  {state : Member}

theorem sound_blueprint
    (machine : Built) :
    machine.blueprint.Sound :=
  Blueprint.defect?_eq_none_iff.mp machine.sound

/-- One operation leads from a state to a state. -/
theorem perform_keeps_state
    (restores : machine.blueprint.RestoresStates)
    (inState : state.family = machine.blueprint.stateFamily)
    {operation : Operation α}
    (restoresState : operation.RestoresState machine.blueprint) :
    (machine.perform state operation).state.family = machine.blueprint.stateFamily := by
  cases operation with
  | fire event arguments =>
      exact machine.sound_blueprint.isState_fireWithin restores inState _ arguments
  | restore state? => exact machine.sound_blueprint.isState_restored restoresState

/-- Any number of operations lead from a state through states. -/
theorem performAll_keeps_states
    (restores : machine.blueprint.RestoresStates)
    (inState : state.family = machine.blueprint.stateFamily)
    {operations : List (Operation α)}
    (restoreStates :
      ∀ operation ∈ operations, operation.RestoresState machine.blueprint) :
    ∀ step ∈ machine.performAll state operations,
      step.state.family = machine.blueprint.stateFamily := by
  induction operations generalizing state with
  | nil => simp [performAll]
  | cons operation rest inductionHypothesis =>
      obtain ⟨restoresState, restRestores⟩ := List.forall_mem_cons.mp restoreStates
      have keeps := perform_keeps_state restores inState restoresState
      exact
        List.forall_mem_cons.mpr ⟨keeps, inductionHypothesis keeps restRestores⟩

/-- Every operation takes one step. -/
@[simp]
theorem length_performAll
    (machine : Built)
    (state : Member)
    (operations : List (Operation α)) :
    (machine.performAll state operations).length = operations.length := by
  induction operations generalizing state with
  | nil => rfl
  | cons operation rest inductionHypothesis => simp [performAll, inductionHypothesis]

end Built

/--
A machine is built from the sound blueprints and from no other one, and what is
reported of any other one is its first defect. Whatever is asked of the machine
afterwards, if only states are restored, it is in a state after every operation, also
after one that has failed.
-/
theorem Blueprint.build_keeps_states
    (blueprint : Blueprint) :
    ((∃ machine, blueprint.build = .ok machine) ↔ blueprint.Sound) ∧
      (∀ defect,
        blueprint.build = .error defect ↔ blueprint.FirstDefect defect) ∧
      ∀ machine,
        blueprint.build = .ok machine →
        blueprint.RestoresStates →
        ∀ operations : List (Operation α),
          (∀ operation ∈ operations, operation.RestoresState blueprint) →
          (machine.session operations).length = operations.length ∧
            ∀ step ∈ machine.session operations,
              step.state.family = blueprint.stateFamily := by
  refine ⟨exists_build_iff_sound, ?_, ?_⟩
  · intro defect
    rw [build_eq_error_iff, defect?_eq_some_iff]
  · intro machine built restores operations restoreStates
    rw [← build_eq_ok_iff.mp built] at restores restoreStates ⊢
    exact
      ⟨machine.length_performAll _ operations,
        Built.performAll_keeps_states restores machine.sound_blueprint.initial
          restoreStates⟩

namespace Relay

/-- An event that is refused, what is no event, and a nested fire between two restores. -/
def operations : List (Operation Nat) :=
  [.restore (some done), .fire finish [1], .fire idle [], .restore none, .fire start [2],
    .restore none]

theorem restoresStates_blueprint : blueprint.RestoresStates := by
  intro event state restores
  have areEntries :
      blueprint.handlers.entries =
        [(start, .fire finish), (finish, .restore (some busy))] :=
    rfl
  have isEntry := OrderedMap.get?_eq_some_iff.mp restores
  rw [areEntries] at isEntry
  have isBusy : event = finish ∧ state = busy := by simpa using isEntry
  rw [isBusy.2]
  rfl

/-- The relay is built, and goes through states whatever is asked of it. -/
theorem build_keeps_states_operations :
    blueprint.build = .ok machine ∧
      blueprint.RestoresStates ∧
      (∀ operation ∈ operations, operation.RestoresState blueprint) ∧
      (machine.session operations).length = 6 ∧
      ∀ step ∈ machine.session operations, step.state.family = .state := by
  have built : blueprint.build = .ok machine := rfl
  have restoreStates :
      ∀ operation ∈ operations, operation.RestoresState blueprint := by
    simp [operations, Operation.RestoresState, done, blueprint]
  obtain ⟨_, _, keeps⟩ := blueprint.build_keeps_states (α := Nat)
  exact
    ⟨built, restoresStates_blueprint, restoreStates,
      keeps machine built restoresStates_blueprint operations restoreStates⟩

/-- All unused events are reported at once, before a handler of what is no event. -/
example :
    (Blueprint.defect?
        { events := ["start", "pause", "finish", "stop"]
          transitions := blueprint.transitions
          handlers := .ofList [(idle, .record)]
          initial := start }).map Defect.message =
      some "Events without transitions: pause, stop" := by
  decide

end Relay

end DocAudit.Machine
