import DocAudit.Fault

namespace DocAudit.DocBlock

/-!
# Drafts of documentation entries

A draft collects the description lines of the entry or the option that is being
read. The lines of a finished description are joined with single spaces.
-/

/-- Lines joined with single spaces. -/
def paragraph (lines : List String) : String :=
  String.intercalate " " lines

/-- The option that is being read. -/
structure OptionDraft where
  owner : String
  name : String
  valueType : String
  line : Int
  lines : List String
  deriving Repr, DecidableEq

namespace OptionDraft

/-- Append a line to the description. -/
def describe
    (draft : OptionDraft)
    (text : String) :
    OptionDraft :=
  { draft with lines := draft.lines ++ [text] }

/-- The option that a draft amounts to. -/
def doc (draft : OptionDraft) : OptionDoc where
  owner := draft.owner
  name := draft.name
  valueType := draft.valueType
  description := paragraph draft.lines
  line := draft.line

end OptionDraft

/-- The entry that is being read. -/
structure EntryDraft where
  name : String
  line : Int
  lines : List String
  options : List OptionDoc
  deriving Repr, DecidableEq

namespace EntryDraft

/-- An entry of which the header was read. -/
def ofHeader
    (name : String)
    (comment : Token) :
    EntryDraft where
  name := name
  line := comment.line
  lines := []
  options := []

/-- Append a line to the description. -/
def describe
    (draft : EntryDraft)
    (text : String) :
    EntryDraft :=
  { draft with lines := draft.lines ++ [text] }

/-- Append a finished option. -/
def addOption
    (draft : EntryDraft)
    (option : OptionDoc) :
    EntryDraft :=
  { draft with options := draft.options ++ [option] }

/-- The entry that a draft amounts to. -/
def doc (draft : EntryDraft) : Except Fault ParameterDoc :=
  ParameterDoc.checked
      { name := draft.name
        description := paragraph draft.lines
        options := draft.options
        line := draft.line }
    |>.mapError Fault.invalidDoc

end EntryDraft

end DocAudit.DocBlock
