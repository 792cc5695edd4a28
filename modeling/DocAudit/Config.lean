import DocAudit.Text.Integer
import DocAudit.Text.Quoted

namespace DocAudit

/-!
# Configuration

Three settings adapt the check to a language: the type word that marks an
optional parameter, the null literal that is the only default of such a
parameter, and the number of spaces that mark a line as description. The two
words are not empty and the number is positive, which the type guarantees. The
settings may come from environment variables.
-/

/-- The settings of a check. -/
structure Config where
  optionalMarker : String
  nullDefault : String
  descriptionIndent : Nat
  markerNonempty : optionalMarker ≠ ""
  nullNonempty : nullDefault ≠ ""
  indentPositive : 0 < descriptionIndent
  deriving DecidableEq

namespace Config

/-- The optional marker that is used unless another one is set. -/
def standardMarker : String := "Optional"

/-- The null literal that is used unless another one is set. -/
def standardNull : String := "undef"

/-- The description indent that is used unless another one is set. -/
def standardIndent : Nat := 2

/-- The text of the description indent that is read when none is set. -/
def standardIndentText : String := "2"

/-- The settings that are used when nothing is set. -/
def standard : Config where
  optionalMarker := standardMarker
  nullDefault := standardNull
  descriptionIndent := standardIndent
  markerNonempty := by decide
  nullNonempty := by decide
  indentPositive := by decide

/-- Why settings are not acceptable. -/
inductive Violation where
  | indentNotInteger (text : String)
  | emptyMarker
  | emptyNull
  | indentTooSmall (indent : Int)
  deriving Repr, DecidableEq

/-- The message that reports a violation. -/
def Violation.message : Violation → String
  | .indentNotInteger text =>
      "PARAM_COMMENT_DESCRIPTION_INDENT must be an integer, got " ++ Text.quoted text
  | .emptyMarker => "optional_marker must not be empty"
  | .emptyNull => "null_default must not be empty"
  | .indentTooSmall indent =>
      s!"min_description_indent must be at least 1, got {indent}"

/-- Accept settings, or report the first violation: marker, null literal, indent. -/
def create
    (marker : String)
    (null : String)
    (indent : Int) :
    Except Violation Config :=
  if markerNonempty : marker ≠ "" then
    if nullNonempty : null ≠ "" then
      if indentPositive : 1 ≤ indent then
        .ok
          { optionalMarker := marker
            nullDefault := null
            descriptionIndent := indent.toNat
            markerNonempty
            nullNonempty
            indentPositive := by omega }
      else
        .error (.indentTooSmall indent)
    else
      .error .emptyNull
  else
    .error .emptyMarker

/-- The texts of the environment variables that are set. -/
structure Environment where
  marker? : Option String
  null? : Option String
  indent? : Option String
  deriving Repr, DecidableEq

namespace Environment

/-- The optional marker that an environment asks for. -/
def marker (environment : Environment) : String :=
  environment.marker?.getD standardMarker

/-- The null literal that an environment asks for. -/
def null (environment : Environment) : String :=
  environment.null?.getD standardNull

/-- The text of the indent that an environment asks for. -/
def indentText (environment : Environment) : String :=
  environment.indent?.getD standardIndentText

end Environment

/--
Settings from an environment, with the indent written by some rules. An indent
that is no integer is reported first.
-/
def ofEnvironment
    (environment : Environment)
    (rules : Text.LiteralRules := .standard) :
    Except Violation Config :=
  match Text.integer? rules environment.indentText.toList with
  | none => .error (.indentNotInteger environment.indentText)
  | some indent => create environment.marker environment.null indent

end Config

end DocAudit
