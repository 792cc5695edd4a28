import DocAudit.Machine.Situation

namespace DocAudit.Signature

/-!
# Phases of reading a parameter list

A parameter is an optional type, a name, and an optional default. Reading one
passes through three phases, and the table says which event may happen in which
of them. Between two parameters the reader is back at the start.
-/

/-- What the reader of a parameter list waits for. -/
inductive Phase where
  | start
  | awaitingName
  | awaitingDefault
  deriving Repr, DecidableEq

/-- The name of a phase. -/
def Phase.name : Phase → String
  | .start => "start"
  | .awaitingName => "awaiting_name"
  | .awaitingDefault => "awaiting_default"

/-- What can happen while a parameter list is read. -/
inductive Event where
  | gotType
  | gotName
  | gotEquals
  | gotEnd
  deriving Repr, DecidableEq

/-- The name of an event. -/
def Event.name : Event → String
  | .gotType => "GOT_TYPE"
  | .gotName => "GOT_NAME"
  | .gotEquals => "GOT_EQUALS"
  | .gotEnd => "GOT_END"

/-- The phase that an event leads to, where it may happen. -/
def table : Machine.Table Phase Event :=
  .ofList
    [((.start, .gotType), .awaitingName),
      ((.start, .gotName), .awaitingDefault),
      ((.awaitingName, .gotName), .awaitingDefault),
      ((.awaitingDefault, .gotEquals), .awaitingDefault),
      ((.awaitingDefault, .gotEnd), .start)]

/-- The table, entry by entry. -/
theorem get?_table (phase : Phase) (event : Event) :
    table.get? (phase, event) =
      match phase, event with
      | .start, .gotType => some .awaitingName
      | .start, .gotName => some .awaitingDefault
      | .awaitingName, .gotName => some .awaitingDefault
      | .awaitingDefault, .gotEquals => some .awaitingDefault
      | .awaitingDefault, .gotEnd => some .start
      | _, _ => none := by
  cases phase <;> cases event <;> rfl

end DocAudit.Signature
