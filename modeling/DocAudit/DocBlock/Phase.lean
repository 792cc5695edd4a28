import DocAudit.Machine.Situation

namespace DocAudit.DocBlock

/-!
# Phases of reading a documentation block

An entry is a header, a description of one or more lines, and then, for a hash,
its options, each with a description of its own. An empty comment line separates
an entry from the next one, or a paragraph of its description from the next
paragraph. The table says which line may follow in which phase.
-/

/-- What the reader of a documentation block waits for. -/
inductive Phase where
  | start
  | awaitingHeader
  | awaitingDescription
  | awaitingSeparator
  | awaitingOptionDescription
  deriving Repr, DecidableEq

/-- The name of a phase. -/
def Phase.name : Phase → String
  | .start => "start"
  | .awaitingHeader => "awaiting_header"
  | .awaitingDescription => "awaiting_description"
  | .awaitingSeparator => "awaiting_separator"
  | .awaitingOptionDescription => "awaiting_option_description"

/-- What can happen while a documentation block is read. -/
inductive Event where
  | gotHeader
  | gotDescription
  | gotSeparator
  | gotOptionHeader
  | gotOptionDescription
  deriving Repr, DecidableEq

/-- The name of an event. -/
def Event.name : Event → String
  | .gotHeader => "GOT_HEADER"
  | .gotDescription => "GOT_DESCRIPTION"
  | .gotSeparator => "GOT_SEPARATOR"
  | .gotOptionHeader => "GOT_OPTION_HEADER"
  | .gotOptionDescription => "GOT_OPTION_DESCRIPTION"

/-- The phase that an event leads to, where it may happen. -/
def table : Machine.Table Phase Event :=
  .ofList
    [((.start, .gotHeader), .awaitingDescription),
      ((.awaitingHeader, .gotHeader), .awaitingDescription),
      ((.awaitingDescription, .gotDescription), .awaitingSeparator),
      ((.awaitingHeader, .gotDescription), .awaitingSeparator),
      ((.awaitingSeparator, .gotDescription), .awaitingSeparator),
      ((.awaitingSeparator, .gotSeparator), .awaitingHeader),
      ((.awaitingSeparator, .gotOptionHeader), .awaitingOptionDescription),
      ((.awaitingOptionDescription, .gotOptionDescription), .awaitingSeparator),
      ((.awaitingSeparator, .gotOptionDescription), .awaitingSeparator)]

/-- The table, entry by entry. -/
theorem get?_table (phase : Phase) (event : Event) :
    table.get? (phase, event) =
      match phase, event with
      | .start, .gotHeader => some .awaitingDescription
      | .awaitingHeader, .gotHeader => some .awaitingDescription
      | .awaitingDescription, .gotDescription => some .awaitingSeparator
      | .awaitingHeader, .gotDescription => some .awaitingSeparator
      | .awaitingSeparator, .gotDescription => some .awaitingSeparator
      | .awaitingSeparator, .gotSeparator => some .awaitingHeader
      | .awaitingSeparator, .gotOptionHeader => some .awaitingOptionDescription
      | .awaitingOptionDescription, .gotOptionDescription =>
          some .awaitingSeparator
      | .awaitingSeparator, .gotOptionDescription => some .awaitingSeparator
      | _, _ => none := by
  cases phase <;> cases event <;> rfl

end DocAudit.DocBlock
