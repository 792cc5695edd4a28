namespace DocAudit

/-!
# Documented parameters

A documentation entry describes one parameter and, for a parameter that is a
hash, its options. Every option names the parameter that it belongs to.
-/

/-- The documentation of one option of a hash parameter. -/
structure OptionDoc where
  owner : String
  name : String
  valueType : String := ""
  description : String := ""
  line : Int := -1
  deriving Repr, DecidableEq

/-- The documentation of one parameter. -/
structure ParameterDoc where
  name : String
  description : String := ""
  options : List OptionDoc := []
  line : Int := -1
  deriving Repr, DecidableEq

namespace ParameterDoc

/-- An option that belongs to another parameter than the entry it stands in. -/
structure Violation where
  option : String
  owner : String
  entry : String
  deriving Repr, DecidableEq

/-- The message that reports a violation. -/
def Violation.message (violation : Violation) : String :=
  s!"Option {violation.option} belongs to {violation.owner}, not {violation.entry}"

/-- The first option of an entry that belongs to another parameter. -/
def violation? (doc : ParameterDoc) : Option Violation :=
  (doc.options.find? fun option => decide (option.owner ≠ doc.name)).map
    fun option => ⟨option.name, option.owner, doc.name⟩

/-- An entry whose options all belong to it. -/
def checked (doc : ParameterDoc) : Except Violation ParameterDoc :=
  match doc.violation? with
  | some violation => .error violation
  | none => .ok doc

end ParameterDoc

end DocAudit
