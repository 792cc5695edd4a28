import DocAudit.DocBlock.Parser
import DocAudit.Proofs.DocBlock.Ownership
import DocAudit.Proofs.Header.RoundTrip
import DocAudit.Proofs.Machine.Scan

namespace DocAudit.DocBlock

/-!
# Entries and their header lines

Every line of a block that mentions the marker of a parameter header opens one
entry, and nothing else does. A block that can be read therefore has one entry
for each of these lines, in order, and the line is the header of the entry.
-/

/-- The header line of an entry, without blank ends. -/
def headerLine (name : String) : String :=
  "@param " ++ name

theorem headerLine_injective : Function.Injective headerLine := by
  intro first second same
  have sameChars := congrArg String.toList same
  simp only [headerLine, String.toList_append, List.append_cancel_left_eq] at sameChars
  exact String.toList_inj.mp sameChars

theorem written_param (name : String) :
    (Header.param name).written = (headerLine name).toList := by
  rw [headerLine, String.toList_append]
  rfl

end DocAudit.DocBlock

namespace DocAudit.CommentLine

/-- The name that a line announces, if it is a parameter header. -/
def Content.headerName? : Content → Option String
  | .header name => some name
  | _ => none

/-- A parameter header is trimmed to the header line of its name. -/
theorem trimmed_of_param
    {comment : Token}
    {name : String}
    (shape : Header.ofComment? comment = some (.param name)) :
    comment.trimmed = DocBlock.headerLine name := by
  obtain ⟨_, written⟩ := Header.ofText?_eq_some_iff.mp shape
  apply String.toList_inj.mp
  rw [← DocBlock.written_param, written]
  simp [Token.trimmed]

theorem ofParamHeader_eq_ok
    {comment : Token}
    {line : CommentLine}
    (read : ofParamHeader comment = .ok line) :
    ∃ name,
      line = ⟨comment, .header name⟩ ∧ Header.ofComment? comment = some (.param name) := by
  unfold ofParamHeader at read
  split at read
  · rename_i name shape
    cases read
    exact ⟨name, rfl, shape⟩
  · cases read

theorem ofOptionHeader_eq_ok
    {comment : Token}
    {line : CommentLine}
    (read : ofOptionHeader comment = .ok line) :
    ∃ hash valueType name,
      line = ⟨comment, .optionHeader hash valueType name⟩ ∧
        Header.ofComment? comment = some (.option hash valueType name) := by
  unfold ofOptionHeader at read
  split at read
  · rename_i hash valueType name shape
    cases read
    exact ⟨hash, valueType, name, rfl, shape⟩
  · cases read

theorem ofText_eq_ok
    {config : Config}
    {comment : Token}
    {line? : Option CommentLine}
    (read : ofText config comment = .ok line?) :
    line? = some ⟨comment, .description⟩ ∨ line? = none := by
  unfold ofText at read
  split at read
  · cases read
    exact .inl rfl
  · split at read
    · cases read
    · cases read
      exact .inr rfl

/-- What a comment is that is read as a line, or is skipped. -/
inductive ReadAs (comment : Token) : Option CommentLine → Prop where
  | header
      {name : String} :
      comment.mentionsParam = true →
      Header.ofComment? comment = some (.param name) →
      ReadAs comment (some ⟨comment, .header name⟩)
  | optionHeader
      {hash valueType name : String} :
      comment.mentionsParam = false →
      Header.ofComment? comment = some (.option hash valueType name) →
      ReadAs comment (some ⟨comment, .optionHeader hash valueType name⟩)
  | separator :
      comment.mentionsParam = false →
      comment.core = [] →
      ReadAs comment (some ⟨comment, .separator⟩)
  | description :
      comment.mentionsParam = false →
      comment.core ≠ [] →
      ReadAs comment (some ⟨comment, .description⟩)
  | skipped :
      comment.mentionsParam = false →
      ReadAs comment none

section Read

variable
  {config : Config}
  {started : Bool}
  {comment : Token}
  {line? : Option CommentLine}

theorem readAs_of_read
    (read : CommentLine.read config started comment = .ok line?) :
    ReadAs comment line? := by
  unfold CommentLine.read at read
  split at read
  · rename_i mentions
    obtain ⟨line, headed, rfl⟩ := map_eq_ok_iff.mp read
    obtain ⟨name, rfl, shape⟩ := ofParamHeader_eq_ok headed
    exact .header mentions shape
  · rename_i noParam
    have silent : comment.mentionsParam = false := Bool.eq_false_iff.mpr noParam
    split at read
    · cases read
      exact .skipped silent
    · split at read
      · obtain ⟨line, headed, rfl⟩ := map_eq_ok_iff.mp read
        obtain ⟨hash, valueType, name, rfl, shape⟩ := ofOptionHeader_eq_ok headed
        exact .optionHeader silent shape
      · split at read
        · rename_i isBlank
          cases read
          exact .separator silent isBlank
        · rename_i nonblank
          rcases ofText_eq_ok read with rfl | rfl
          · exact .description silent nonblank
          · exact .skipped silent

/--
A comment that mentions the parameter marker is read as the header that it writes.
Any other comment is skipped or read as a line that is no parameter header.
-/
theorem read_eq_ok
    (read : CommentLine.read config started comment = .ok line?) :
    (comment.mentionsParam = true ∧
        ∃ name,
          line? = some ⟨comment, .header name⟩ ∧
            comment.trimmed = DocBlock.headerLine name) ∨
      comment.mentionsParam = false ∧
        ∀ line ∈ line?, line.comment = comment ∧ line.content.headerName? = none := by
  cases readAs_of_read read with
  | header mentions shape => exact .inl ⟨mentions, _, rfl, trimmed_of_param shape⟩
  | optionHeader silent => exact .inr ⟨silent, by simp [Content.headerName?]⟩
  | separator silent => exact .inr ⟨silent, by simp [Content.headerName?]⟩
  | description silent => exact .inr ⟨silent, by simp [Content.headerName?]⟩
  | skipped silent => exact .inr ⟨silent, by simp⟩

/-- Reading a comment opens an entry exactly when it mentions the parameter marker. -/
theorem headerName_of_read
    (read : CommentLine.read config started comment = .ok line?) :
    (line?.bind fun line => line.content.headerName?).toList.map DocBlock.headerLine =
      ([comment].filter Token.mentionsParam).map Token.trimmed := by
  rcases read_eq_ok read with ⟨mentions, name, rfl, text⟩ | ⟨silent, noHeader⟩
  · simp [Content.headerName?, mentions, text]
  · have noName : (line?.bind fun line => line.content.headerName?) = none :=
      Option.bind_eq_none_iff.mpr fun line isLine => (noHeader line isLine).2
    simp [noName, silent]

end Read

end DocAudit.CommentLine

namespace DocAudit.DocBlock

/-- The entry that a draft amounts to, if its options belong to it. -/
def EntryDraft.entry (draft : EntryDraft) : ParameterDoc where
  name := draft.name
  description := paragraph draft.lines
  options := draft.options
  line := draft.line

theorem EntryDraft.eq_entry_of_doc
    {draft : EntryDraft}
    {doc : ParameterDoc}
    (finished : draft.doc = .ok doc) :
    doc = draft.entry := by
  unfold EntryDraft.doc ParameterDoc.checked at finished
  split at finished
  · cases finished
  · cases finished
    rfl

theorem EntryDraft.name_of_doc
    {draft : EntryDraft}
    {doc : ParameterDoc}
    (finished : draft.doc = .ok doc) :
    doc.name = draft.name :=
  congrArg ParameterDoc.name (eq_entry_of_doc finished)

namespace Contents

/-- The names of the entries that were opened so far. -/
def names (contents : Contents) : List String :=
  contents.docs.map ParameterDoc.name ++
    (contents.draft?.map EntryDraft.name).toList

theorem names_closeOption (contents : Contents) :
    contents.closeOption.names = contents.names := by
  rcases contents with ⟨draft?, option?, docs⟩
  cases draft? <;>
    cases option? <;>
      simp [closeOption, names, EntryDraft.addOption]

theorem names_of_closeEntry
    {contents closed : Contents}
    (closes : contents.closeEntry = .ok closed) :
    closed.draft? = none ∧
      closed.docs.map ParameterDoc.name = contents.names := by
  unfold closeEntry at closes
  split at closes
  · rename_i noEntry
    cases closes
    exact ⟨noEntry, by simp [names, noEntry]⟩
  · rename_i entry isOpen
    obtain ⟨doc, finished, rfl⟩ := map_eq_ok_iff.mp closes
    exact ⟨rfl, by simp [names, isOpen, EntryDraft.name_of_doc finished]⟩

theorem names_of_openEntry
    {contents opened : Contents}
    {name : String}
    {comment : Token}
    (opens : contents.openEntry name comment = .ok opened) :
    opened.names = contents.names ++ [name] := by
  obtain ⟨closed, closes, rfl⟩ := map_eq_ok_iff.mp opens
  have kept := (names_of_closeEntry closes).2
  rw [names_closeOption] at kept
  simp [names, kept, EntryDraft.ofHeader]

theorem names_of_openOption
    {contents opened : Contents}
    {hash valueType name : String}
    {comment : Token}
    (opens : contents.openOption hash valueType name comment = .ok opened) :
    opened.names = contents.names := by
  obtain ⟨entry, _, _, rfl⟩ := openOption_eq_ok opens
  exact names_closeOption contents

theorem names_describe
    (contents : Contents)
    (text : String) :
    (contents.describe text).names = contents.names := by
  rcases contents with ⟨draft?, option?, docs⟩
  cases option? <;>
    cases draft? <;>
      simp [describe, names, EntryDraft.describe]

/-- An accepted line opens an entry exactly when it is a parameter header. -/
theorem names_of_accept
    {contents next : Contents}
    {line : CommentLine}
    (accepts : contents.accept line = .ok next) :
    next.names = contents.names ++ line.content.headerName?.toList := by
  rcases line with ⟨comment, content⟩
  cases content with
  | header name =>
      exact names_of_openEntry accepts
  | optionHeader hash valueType name =>
      simpa [CommentLine.Content.headerName?] using names_of_openOption accepts
  | separator =>
      cases accepts
      simp [CommentLine.Content.headerName?]
  | description =>
      cases accepts
      simpa [CommentLine.Content.headerName?] using names_describe contents _

end Contents

namespace Reader

/-- A comment opens one entry, under its own text, exactly when it mentions the marker. -/
theorem names_of_step
    {config : Config}
    {reader next : Reader}
    {comment : Token}
    (steps : step config reader comment = .ok next) :
    next.contents.names.map headerLine =
      reader.contents.names.map headerLine ++
        ([comment].filter Token.mentionsParam).map Token.trimmed := by
  unfold step at steps
  cases read : CommentLine.read config reader.contents.started comment with
  | error fault => simp [read] at steps
  | ok line? =>
      have headed := CommentLine.headerName_of_read read
      rw [← headed]
      cases line? with
      | none =>
          simp only [read, Except.ok.injEq] at steps
          subst next
          simp
      | some line =>
          simp only [read] at steps
          obtain ⟨target, contents, _, accepts, rfl⟩ :=
            Machine.Situation.fire_eq_ok steps
          simp [Contents.names_of_accept accepts]

/-- A block that is read to its end has one entry for each line with the marker. -/
theorem names_of_run
    {config : Config}
    {reader : Reader}
    {comments : List Token}
    {docs : List ParameterDoc}
    (answers :
      ((Machine.Scan.run (step config) reader comments).andThen finish).outcome
          (fun situation => situation.contents.docs) =
        .ok docs) :
    (docs.map ParameterDoc.name).map headerLine =
      reader.contents.names.map headerLine ++
        (comments.filter Token.mentionsParam).map Token.trimmed := by
  induction comments generalizing reader with
  | nil =>
      rw [Machine.Scan.outcome_run_nil] at answers
      obtain ⟨final, finishes, rfl⟩ := map_eq_ok_iff.mp answers
      obtain ⟨closed, closes, rfl⟩ := map_eq_ok_iff.mp finishes
      have kept := (Contents.names_of_closeEntry closes).2
      rw [Contents.names_closeOption] at kept
      simp [kept]
  | cons comment rest inductionHypothesis =>
      obtain ⟨next, steps, restAnswers⟩ :=
        Machine.Scan.outcome_run_cons_eq_ok_iff.mp answers
      rw [inductionHypothesis restAnswers, names_of_step steps, List.append_assoc,
        ← List.map_append, ← List.filter_append]
      rfl

end Reader

theorem docs_eq_outcome
    (config : Config)
    (comments : List Token) :
    DocBlock.docs config comments =
      (Reader.scan config Reader.start comments).outcome
        fun reader => reader.contents.docs :=
  rfl

/--
The entries of a block that can be read are those that its header lines announce:
one for each line that mentions the marker, in order, under the text of the line.
-/
theorem headerLines_of_docs
    {config : Config}
    {comments : List Token}
    {docs : List ParameterDoc}
    (answers : DocBlock.docs config comments = .ok docs) :
    (docs.map ParameterDoc.name).map headerLine =
      (comments.filter Token.mentionsParam).map Token.trimmed := by
  rw [docs_eq_outcome] at answers
  unfold Reader.scan at answers
  cases valid : Header.validate comments with
  | error error => simp [valid, Machine.Scan.stopped, Machine.Scan.outcome] at answers
  | ok _ =>
      simp only [valid] at answers
      rw [Reader.names_of_run answers]
      rfl

end DocAudit.DocBlock
