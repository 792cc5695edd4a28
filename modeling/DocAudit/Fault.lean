import DocAudit.Limit
import DocAudit.Parameter
import DocAudit.ParameterDoc
import DocAudit.ParseError

namespace DocAudit

/-!
# Faults

A check can stop for two reasons. The input can be unreadable, which is reported
as a finding about one declaration; or something that the check relies on can be
invalid or absent, which ends the whole check: a record, a token, an entry, the
place of a declaration, or a run of spaces as long as the description indent.
-/

/-- Why a check stops. -/
inductive Fault where
  | unreadable (error : ParseError)
  | invalidParameter (violation : Parameter.Violation)
  | invalidDoc (violation : ParameterDoc.Violation)
  | noToken
  | noEntry
  | startOutOfRange (start : Int)
  | indentTooLong
  | outOfMemory
  deriving Repr, DecidableEq

namespace Fault

/-- The error that blames a token, which must be there to be blamed. -/
def blaming
    (token? : Option Token)
    (error : Token → ParseError) :
    Fault :=
  match token? with
  | some token => .unreadable (error token)
  | none => .noToken

/-- An error that blames a token comes from a token that is there. -/
theorem blaming_eq_unreadable_iff
    {token? : Option Token}
    {error : Token → ParseError}
    {reported : ParseError} :
    blaming token? error = .unreadable reported ↔
      ∃ token, token? = some token ∧ error token = reported := by
  cases token? <;> simp [blaming]

/-- The fault that a run of spaces cannot be made, if it cannot. -/
def ofRun? (length : Nat) : Option Fault :=
  if length ≤ Limit.longestText then
    none
  else if length ≤ Limit.greatestLength then
    some .outOfMemory
  else
    some .indentTooLong

/-- That a run of spaces cannot be made is not the fault of the input. -/
theorem ofRun?_ne_unreadable
    {length : Nat}
    {error : ParseError} :
    ofRun? length ≠ some (.unreadable error) := by
  unfold ofRun?
  split
  · simp
  · split <;> simp

/-- The message that a number is too great for a place or a length. -/
def tooGreatMessage : String :=
  "cannot fit 'int' into an index-sized integer"

/--
The message of a fault. A declaration that starts behind the end of its file is
looked for at the place in front of it, which may be too great for a place.
-/
def message : Fault → String
  | .unreadable error => error.message
  | .invalidParameter violation => violation.message
  | .invalidDoc violation => violation.message
  | .noToken => "no token was read"
  | .noEntry => "no entry is open"
  | .startOutOfRange start =>
      if start - 1 ≤ Limit.greatestLength then
        "list index out of range"
      else
        tooGreatMessage
  | .indentTooLong => tooGreatMessage
  | .outOfMemory => ""

end Fault

end DocAudit
