import DocAudit.ParseError

namespace DocAudit

/-!
# Findings

A finding is one problem of one declaration. Its cause says what the problem is;
the kind, the message and the names that are reported are views of the cause. A
finding without position leaves the position to the report.
-/

namespace Finding

/-- What a finding is about. -/
inductive Cause where
  | missing (names : List String)
  | unused (names : List String)
  | misordered (name : String)
  | unreadable (error : ParseError)
  deriving Repr, DecidableEq

namespace Cause

/-- The name of a kind of finding. -/
def kindName : Cause → String
  | .missing _ => "missing_documentation"
  | .unused _ => "undocumented_extra"
  | .misordered _ => "ordering_violation"
  | .unreadable _ => "parse_error"

/-- The message of a finding. -/
def message : Cause → String
  | .missing names =>
      "Missing parameter documentation for " ++ String.intercalate "," names
  | .unused names =>
      "Documented but unused parameters found: " ++ String.intercalate "," names
  | .misordered _ => "Parameters sorted wrong"
  | .unreadable error => error.message

/-- The names that a finding is about. -/
def names : Cause → List String
  | .missing names => names
  | .unused names => names
  | .misordered name => [name]
  | .unreadable _ => []

end Cause

end Finding

/-- One problem of one declaration, and where it is. -/
structure Finding where
  cause : Finding.Cause
  position? : Option Position
  deriving Repr, DecidableEq

namespace Finding

/-- The message of a finding. -/
def message (finding : Finding) : String :=
  finding.cause.message

/-- The names that a finding is about. -/
def names (finding : Finding) : List String :=
  finding.cause.names

/-- The finding that a declaration cannot be read. -/
def ofError (error : ParseError) : Finding where
  cause := .unreadable error
  position? := some error.position

/-- A finding without position is reported at the first place of the file. -/
def located (finding : Finding) : Finding :=
  { finding with position? := some (finding.position?.getD .first) }

end Finding

end DocAudit
