import DocAudit.Text.Quoted

namespace DocAudit

/-!
# Declared parameters

A parameter of a class or defined type has a name, a type, and a default. The
category says which defaults it may have: a mandatory parameter none, a parameter
with default some, and an optional one none or the null literal.
-/

namespace Parameter

/-- What a parameter demands of its default. -/
inductive Category where
  | mandatory
  | withDefault
  | optional
  deriving Repr, DecidableEq

namespace Category

/-- All categories. -/
def all : List Category :=
  [.mandatory, .withDefault, .optional]

/-- The name of a category. -/
def name : Category → String
  | .mandatory => "MANDATORY"
  | .withDefault => "WITH_DEFAULT"
  | .optional => "OPTIONAL"

/-- The category with a name. -/
def ofName? (text : String) : Option Category :=
  all.find? fun category => decide (category.name = text)

/-- A category is the category with its name. -/
theorem ofName?_name (category : Category) :
    ofName? category.name = some category := by
  cases category <;> decide

end Category

/-- How a parameter can contradict its category. -/
inductive Violation where
  | optionalDefault (name nullDefault defaultText : String)
  | missingDefault (name : String)
  | mandatoryDefault (name defaultText : String)
  deriving Repr, DecidableEq

/-- The message that reports a violation. -/
def Violation.message : Violation → String
  | .optionalDefault name nullDefault defaultText =>
      s!"Optional parameter {name} must default to {nullDefault}, got " ++
        Text.quoted defaultText
  | .missingDefault name => s!"Parameter {name} has no default value"
  | .mandatoryDefault name defaultText =>
      s!"Mandatory parameter {name} can't have default " ++ Text.quoted defaultText

end Parameter

/--
A declared parameter. The type is empty for an untyped parameter, and the default
is empty for a parameter without one.
-/
structure Parameter where
  name : String
  declaredType : String := ""
  category : Parameter.Category := .mandatory
  defaultText : String := ""
  nullDefault : String := "undef"
  deriving Repr, DecidableEq

namespace Parameter

/-- How the default of a parameter contradicts its category, if it does. -/
def violation? (parameter : Parameter) : Option Violation :=
  match parameter.category with
  | .optional =>
      if parameter.defaultText ≠ "" ∧
          parameter.defaultText ≠ parameter.nullDefault then
        some (.optionalDefault parameter.name parameter.nullDefault
          parameter.defaultText)
      else
        none
  | .withDefault =>
      if parameter.defaultText = "" then
        some (.missingDefault parameter.name)
      else
        none
  | .mandatory =>
      if parameter.defaultText = "" then
        none
      else
        some (.mandatoryDefault parameter.name parameter.defaultText)

/-- A parameter whose default agrees with its category. -/
def checked (parameter : Parameter) : Except Violation Parameter :=
  match parameter.violation? with
  | some violation => .error violation
  | none => .ok parameter

/--
Whether two parameters are declared alike. The null literal belongs to the check
and not to the declaration, so it is not compared.
-/
def sameDeclaration (left right : Parameter) : Bool :=
  decide (left.name = right.name) &&
    decide (left.declaredType = right.declaredType) &&
    decide (left.category = right.category) &&
    decide (left.defaultText = right.defaultText)

end Parameter

end DocAudit
