import DocAudit.Config
import DocAudit.Fault
import DocAudit.Header
import DocAudit.Text.Indent

namespace DocAudit

/-!
# Comment lines

A line of a comment block is a parameter header, an option header, a separator,
or description text. Lines before the first parameter header, and lines of other
text that is not indented, belong to none of these and are skipped. That a line
is not indented is found out with a run of spaces as long as the description
indent, which cannot always be made.
-/

namespace CommentLine

/-- What a comment line holds. -/
inductive Content where
  | header (name : String)
  | optionHeader (hash valueType name : String)
  | separator
  | description
  deriving Repr, DecidableEq

namespace Content

/-- The name of a kind of line. -/
def kindName : Content → String
  | .header _ => "header"
  | .optionHeader _ _ _ => "option_header"
  | .separator => "separator"
  | .description => "description"

/-- The header of a line, if it is one. -/
def header? : Content → Option Header
  | .header name => some (.param name)
  | .optionHeader hash valueType name => some (.option hash valueType name)
  | .separator => none
  | .description => none

end Content

end CommentLine

/-- A comment together with what it holds. -/
structure CommentLine where
  comment : Token
  content : CommentLine.Content
  deriving Repr, DecidableEq

namespace CommentLine

/-- The text of a line without the blank characters at its two ends. -/
def text (line : CommentLine) : String :=
  line.comment.trimmed

/-- Read a line that mentions the marker of a parameter header. -/
def ofParamHeader (comment : Token) : Except Fault CommentLine :=
  match Header.ofComment? comment with
  | some (.param name) => .ok ⟨comment, .header name⟩
  | _ => .error (.unreadable (.malformedHeader comment))

/-- Read a line that mentions the marker of an option header only. -/
def ofOptionHeader (comment : Token) : Except Fault CommentLine :=
  match Header.ofComment? comment with
  | some (.option hash valueType name) =>
      .ok ⟨comment, .optionHeader hash valueType name⟩
  | _ => .error (.unreadable (.malformedHeader comment))

/--
Read a line that mentions no marker and is not blank, or skip it. A line that
holds a run of spaces as long as the description indent has room for one; any
other line is skipped once such a run was made.
-/
def ofText
    (config : Config)
    (comment : Token) :
    Except Fault (Option CommentLine) :=
  if Text.indentsWord config.descriptionIndent comment.text.toList then
    .ok (some ⟨comment, .description⟩)
  else
    match Fault.ofRun? config.descriptionIndent with
    | some fault => .error fault
    | none => .ok none

/--
Read a comment, or skip it. Before the first parameter header, which `started`
tells, only parameter headers are read.
-/
def read
    (config : Config)
    (started : Bool)
    (comment : Token) :
    Except Fault (Option CommentLine) :=
  if comment.mentionsParam then
    (ofParamHeader comment).map some
  else if !started then
    .ok none
  else if comment.mentionsOption then
    (ofOptionHeader comment).map some
  else if comment.core = [] then
    .ok (some ⟨comment, .separator⟩)
  else
    ofText config comment

end CommentLine

end DocAudit
