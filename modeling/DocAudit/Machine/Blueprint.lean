import DocAudit.OrderedMap

namespace DocAudit.Machine

/-!
# Blueprints

A blueprint describes a machine by data: its events, its transition table, what
its handlers do, and its initial state. The members it is written with come from
any families, two of which are the family of its states and the family of its
events. A blueprint is sound when each member belongs to the family that its place
asks for and every event can occur. A blueprint is checked once, before a machine
is built from it.
-/

/-- A family of members. Families of one name from different homes are different. -/
structure Family where
  name : String
  home : String := ""
  deriving Repr, DecidableEq

namespace Family

/-- The family of states, where a blueprint names no other one. -/
def state : Family where
  name := "State"

/-- The family of events, where a blueprint names no other one. -/
def event : Family where
  name := "Event"

/-- A family of members that are neither. -/
def other : Family where
  name := "Other"

end Family

/-- A member of a family. -/
structure Member where
  family : Family
  name : String
  deriving Repr, DecidableEq

/-- A member as messages write it: its family and its name. -/
def Member.label (member : Member) : String :=
  s!"{member.family.name}.{member.name}"

/-- What the handler of an event does when the event is fired. -/
inductive Reaction where
  | record
  | fail (text : String)
  | fire (event : Member)
  | restore (state? : Option Member)
  deriving Repr, DecidableEq

/-- A reaction as it is written down. -/
def Reaction.label : Reaction → String
  | .record => "record"
  | .fail text => s!"fail:{text}"
  | .fire event => s!"fire:{event.label}"
  | .restore none => "restore"
  | .restore (some state) => s!"restore:{state.label}"

/-- The description of a machine; its events are named in the order of their family. -/
structure Blueprint where
  stateFamily : Family := .state
  eventFamily : Family := .event
  events : List String
  transitions : OrderedMap (Member × Member) Member
  handlers : OrderedMap Member Reaction
  initial : Member

/-- What is wrong with a blueprint. -/
inductive Defect where
  | unknownState (source event target : Member)
  | unknownEvent (source event : Member)
  | unusedEvents (names : List String)
  | unknownHandler (event : Member)
  | unknownInitial (state : Member)
  deriving Repr, DecidableEq

/-- The message that reports a defect. -/
def Defect.message : Defect → String
  | .unknownState source event target =>
      s!"Unknown state in transition ({source.label}, {event.label}) -> {target.label}"
  | .unknownEvent source event =>
      s!"Unknown event in transition ({source.label}, {event.label})"
  | .unusedEvents names =>
      "Events without transitions: " ++ String.intercalate ", " names
  | .unknownHandler event => s!"Handler for unknown event {event.label}"
  | .unknownInitial state => s!"Unknown initial state {state.label}"

namespace Blueprint

/-- Whether a member is a state. -/
def isState (blueprint : Blueprint) (member : Member) : Bool :=
  decide (member.family = blueprint.stateFamily)

/-- Whether a member is an event. -/
def isEvent (blueprint : Blueprint) (member : Member) : Bool :=
  decide (member.family = blueprint.eventFamily)

/-- The defect of one entry of the transition table. -/
def transitionDefect?
    (blueprint : Blueprint)
    (entry : (Member × Member) × Member) :
    Option Defect :=
  if !blueprint.isState entry.1.1 || !blueprint.isState entry.2 then
    some (.unknownState entry.1.1 entry.1.2 entry.2)
  else if !blueprint.isEvent entry.1.2 then
    some (.unknownEvent entry.1.1 entry.1.2)
  else
    none

/-- The defect of one handler. -/
def handlerDefect?
    (blueprint : Blueprint)
    (entry : Member × Reaction) :
    Option Defect :=
  if blueprint.isEvent entry.1 then
    none
  else
    some (.unknownHandler entry.1)

/-- Names of the events that no entry of the transition table mentions. -/
def unusedEvents (blueprint : Blueprint) : List String :=
  blueprint.events.filter fun name =>
    !(blueprint.transitions.keys.map Prod.snd).contains ⟨blueprint.eventFamily, name⟩

/--
The first defect of a blueprint: entries of the transition table in order, then
all unused events at once, then handlers in order, then the initial state.
-/
def defect? (blueprint : Blueprint) : Option Defect :=
  match blueprint.transitions.entries.findSome? blueprint.transitionDefect? with
  | some defect => some defect
  | none =>
      match blueprint.unusedEvents with
      | first :: rest => some (.unusedEvents (first :: rest))
      | [] =>
          match blueprint.handlers.entries.findSome? blueprint.handlerDefect? with
          | some defect => some defect
          | none =>
              if blueprint.isState blueprint.initial then
                none
              else
                some (.unknownInitial blueprint.initial)

/-- The state that is restored, by default the initial one. -/
def restored
    (blueprint : Blueprint)
    (state? : Option Member) :
    Member :=
  state?.getD blueprint.initial

end Blueprint

end DocAudit.Machine
