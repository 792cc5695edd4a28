import DocAudit.Proofs.DocBlock.Answer
import DocAudit.Proofs.DocBlock.Sections

namespace DocAudit

/-!
# Every line is accounted for

A reader holds the sections of the lines that it has taken: the last one as its
drafts, and the others as finished entries. A line that is taken becomes the last
line of these sections, unless it is a separator. So a block that is accepted has
an entry for every section of its documentation lines.
-/

namespace DocBlock

/--
What is held by a reader that has read sections: all but the last one are
finished, and the last one is open, in its description or in its last option.
-/
inductive Contents.Holds : Contents → List EntrySection → Prop where
  | nothing :
      Holds .blank []
  | entry
      (finished : List EntrySection)
      {last : EntrySection}
      (noOption : last.options = []) :
      Holds
        { draft? := some last.draft
          option? := none
          docs := finished.map EntrySection.doc }
        (finished ++ [last])
  | option
      (finished : List EntrySection)
      (last : EntrySection)
      (pending : OptionSection) :
      Holds
        { draft? := some last.draft
          option? := some pending.draft
          docs := finished.map EntrySection.doc }
        (finished ++ [last.addOption pending])

namespace Contents

variable
  {contents : Contents}
  {sections : List EntrySection}

/-- With the open option closed, the last section is a draft and the others are finished. -/
theorem Holds.closeOption
    (holds : contents.Holds sections) :
    contents = .blank ∧ sections = [] ∨
      ∃ finished last,
        sections = finished ++ [last] ∧
          contents.closeOption =
            { draft? := some last.draft
              option? := none
              docs := finished.map EntrySection.doc } := by
  cases holds with
  | nothing => exact .inl ⟨rfl, rfl⟩
  | @entry finished last noOption => exact .inr ⟨finished, last, rfl, rfl⟩
  | option finished last pending =>
      refine .inr ⟨finished, last.addOption pending, rfl, ?_⟩
      rw [← EntrySection.draft_addOption]
      rfl

/-- Closing all that is open finishes every section. -/
theorem Holds.eq_of_close
    {closed : Contents}
    (holds : contents.Holds sections)
    (closes : contents.closeOption.closeEntry = .ok closed) :
    closed = { blank with docs := sections.map EntrySection.doc } := by
  rcases holds.closeOption with ⟨rfl, rfl⟩ | ⟨finished, last, rfl, isClosed⟩
  · cases closes
    rfl
  · rw [isClosed] at closes
    obtain ⟨doc, finishes, rfl⟩ := map_eq_ok_iff.mp closes
    obtain rfl := EntrySection.doc_of_draft finishes
    simp [blank]

/-- A parameter header opens a section. -/
theorem Holds.openEntry
    {opened : Contents}
    {name : String}
    {comment : Token}
    (holds : contents.Holds sections)
    (opens : contents.openEntry name comment = .ok opened) :
    opened.Holds (sections ++ [⟨comment, name, [], []⟩]) := by
  obtain ⟨closed, closes, rfl⟩ := map_eq_ok_iff.mp opens
  obtain rfl := holds.eq_of_close closes
  have noOption : (EntrySection.mk comment name [] []).options = [] := rfl
  exact .entry sections noOption

/-- An option header opens an option in the last section. -/
theorem Holds.openOption
    {opened : Contents}
    {hash valueType name : String}
    {comment : Token}
    (holds : contents.Holds sections)
    (opens : contents.openOption hash valueType name comment = .ok opened) :
    ∃ finished last,
      sections = finished ++ [last] ∧
        opened.Holds
          (finished ++ [last.addOption ⟨comment, hash, valueType, name, []⟩]) := by
  obtain ⟨entry, isOpen, _, rfl⟩ := openOption_eq_ok opens
  rcases holds.closeOption with ⟨rfl, rfl⟩ | ⟨finished, last, rfl, isClosed⟩
  · cases isOpen
  · rw [isClosed]
    exact ⟨finished, last, rfl, .option finished last ⟨comment, hash, valueType, name, []⟩⟩

/-- A description line is appended to what is open in the last section. -/
theorem Holds.describe
    (holds : contents.Holds sections)
    (isOpen : contents.draft? ≠ none)
    (comment : Token) :
    ∃ finished last described,
      sections = finished ++ [last] ∧
        (contents.describe comment.trimmed).Holds (finished ++ [described]) ∧
          described.lines = last.lines ++ [⟨comment, .description⟩] := by
  cases holds with
  | nothing => exact (isOpen rfl).elim
  | @entry finished last noOption =>
      have described :
          last.draft.describe comment.trimmed = (last.describe comment).draft := by
        simp [EntrySection.draft, EntrySection.describe, EntrySection.texts,
          EntryDraft.describe]
      refine
        ⟨finished, last, last.describe comment, rfl, ?_,
          EntrySection.lines_describe noOption comment⟩
      simp only [Contents.describe, described]
      exact .entry finished noOption
  | option finished last pending =>
      -- The pending option ends its section, so its last line is the last of all.
      have described :
          pending.draft.describe comment.trimmed = (pending.describe comment).draft := by
        simp [OptionSection.draft, OptionSection.describe, OptionSection.texts,
          OptionDraft.describe]
      refine
        ⟨finished, last.addOption pending, last.addOption (pending.describe comment),
          rfl, ?_, ?_⟩
      · simp only [Contents.describe, described]
        exact .option finished last (pending.describe comment)
      · simp only [EntrySection.lines_addOption, OptionSection.lines_describe,
          List.append_assoc]

/-- A line that is accepted becomes the last one of the sections, unless it separates. -/
theorem Holds.accept
    {next : Contents}
    {line : CommentLine}
    (holds : contents.Holds sections)
    (begins : contents.draft? = none → ∃ name, line.content = .header name)
    (accepts : contents.accept line = .ok next) :
    ∃ others,
      next.Holds others ∧
        others.flatMap EntrySection.lines =
          sections.flatMap EntrySection.lines ++
            [line].filter CommentLine.isSectionPart := by
  rcases line with ⟨comment, content⟩
  cases content with
  | header name =>
      refine ⟨_, holds.openEntry accepts, ?_⟩
      rw [List.flatMap_append]
      rfl
  | optionHeader hash valueType name =>
      obtain ⟨finished, last, rfl, opened⟩ := holds.openOption accepts
      refine ⟨_, opened, ?_⟩
      simp only [List.flatMap_append, List.flatMap_singleton, EntrySection.lines_addOption,
        List.append_assoc]
      rfl
  | separator =>
      cases accepts
      exact ⟨sections, holds, (List.append_nil _).symm⟩
  | description =>
      cases accepts
      have isOpen : contents.draft? ≠ none := by
        intro noEntry
        obtain ⟨name, isHeader⟩ := begins noEntry
        cases isHeader
      obtain ⟨finished, last, described, rfl, holdsNext, lines⟩ :=
        holds.describe isOpen comment
      refine ⟨_, holdsNext, ?_⟩
      simp only [List.flatMap_append, List.flatMap_singleton, lines, List.append_assoc]
      rfl

end Contents

namespace Reader

variable
  {reader last : Reader}
  {line : CommentLine}
  {sections : List EntrySection}

theorem holds_of_take
    (sound : Sound reader)
    (holds : reader.contents.Holds sections)
    (takes : take reader line = .ok last) :
    ∃ others,
      last.contents.Holds others ∧
        others.flatMap EntrySection.lines =
          sections.flatMap EntrySection.lines ++
            [line].filter CommentLine.isSectionPart := by
  have begins :
      reader.contents.draft? = none → ∃ name, line.content = .header name := by
    intro noEntry
    have follows := standing_take sound line
    rw [takes] at follows
    refine Standing.isHeader_of_next? sound.begun ?_ follows.symm
    simp [standing, Contents.standing, noEntry]
  obtain ⟨target, contents, _, accepts, rfl⟩ := Machine.Situation.fire_eq_ok takes
  exact holds.accept begins accepts

/-- The lines that were taken are those of the sections, without the separators. -/
theorem holds_of_run
    {lines : List CommentLine}
    (sound : Sound reader)
    (holds : reader.contents.Holds sections)
    (runs : Machine.Scan.run take reader lines = .finished last) :
    ∃ others,
      last.contents.Holds others ∧
        others.flatMap EntrySection.lines =
          sections.flatMap EntrySection.lines ++
            lines.filter CommentLine.isSectionPart := by
  induction lines generalizing reader sections with
  | nil =>
      cases runs
      exact ⟨sections, holds, (List.append_nil _).symm⟩
  | cons line rest inductionHypothesis =>
      obtain ⟨next, takes, runs⟩ := Machine.Scan.run_cons_eq_finished_iff.mp runs
      obtain ⟨extended, holdsNext, added⟩ := holds_of_take sound holds takes
      obtain ⟨others, holdsLast, addedRest⟩ :=
        inductionHypothesis (sound.take takes) holdsNext runs
      refine ⟨others, holdsLast, ?_⟩
      rw [addedRest, added, List.append_assoc, ← List.filter_append]
      rfl

end Reader

end DocBlock

namespace CommentLine

/-- A comment is read as a parameter header exactly when it mentions the marker. -/
theorem paramHeader_of_read
    {config : Config}
    {started : Bool}
    {comment : Token}
    {line? : Option CommentLine}
    (read : CommentLine.read config started comment = .ok line?) :
    (line?.toList.filter isParamHeader).map CommentLine.comment =
      [comment].filter Token.mentionsParam := by
  rcases read_eq_ok read with ⟨mentions, name, rfl, _⟩ | ⟨silent, isOther⟩
  · rw [List.filter_cons_of_pos mentions]
    rfl
  · rw [List.filter_cons_of_neg (by simp [silent])]
    cases line? with
    | none => rfl
    | some line => simp [isParamHeader, (isOther line rfl).2]

end CommentLine

namespace DocBlock

/-- The parameter headers among lines are the comments that mention the marker. -/
theorem paramHeaders_of_linesFrom
    {config : Config}
    {comments : List Token}
    {lines : List CommentLine}
    (read : linesFrom config comments = .ok lines) :
    (lines.filter CommentLine.isParamHeader).map CommentLine.comment =
      comments.filter Token.mentionsParam := by
  induction comments generalizing lines with
  | nil =>
      cases read
      rfl
  | cons comment rest inductionHypothesis =>
      obtain ⟨line?, others, readHere, readRest, rfl⟩ := linesFrom_cons_eq_ok_iff.mp read
      rw [List.filter_append, List.map_append, CommentLine.paramHeader_of_read readHere,
        inductionHypothesis readRest, ← List.filter_append]
      rfl

theorem paramHeaders_of_documentationLines
    {config : Config}
    {comments : List Token}
    {lines : List CommentLine}
    (read : documentationLines config comments = .ok lines) :
    (lines.filter CommentLine.isParamHeader).map CommentLine.comment =
      comments.filter Token.mentionsParam := by
  obtain ⟨skipped, headed, rfl, silent, isHeaded⟩ := exists_headed comments
  rw [documentationLines_append silent isHeaded] at read
  have noneSkipped : skipped.filter Token.mentionsParam = [] := by
    rw [List.filter_eq_nil_iff]
    intro comment member mentions
    rw [silent comment member] at mentions
    cases mentions
  rw [paramHeaders_of_linesFrom read, List.filter_append, noneSkipped, List.nil_append]

/--
Sections that account for the documentation lines of a block. Their lines are the
documentation lines without the separators; their headers are the comments that
mention the marker; and their texts are those of the description lines.
-/
structure Accounts
    (config : Config)
    (comments : List Token)
    (lines : List CommentLine)
    (sections : List EntrySection) : Prop where
  read : documentationLines config comments = .ok lines
  inOrder :
    sections.flatMap EntrySection.lines = lines.filter CommentLine.isSectionPart
  headers :
    sections.map EntrySection.comment = comments.filter Token.mentionsParam
  texts :
    sections.flatMap EntrySection.allTexts =
      (lines.filter CommentLine.isDescription).map CommentLine.text

/-- Sections with the right lines have the right headers and texts. -/
theorem Accounts.of_inOrder
    {config : Config}
    {comments : List Token}
    {lines : List CommentLine}
    {sections : List EntrySection}
    (read : documentationLines config comments = .ok lines)
    (inOrder :
      sections.flatMap EntrySection.lines = lines.filter CommentLine.isSectionPart) :
    Accounts config comments lines sections := by
  refine ⟨read, inOrder, ?_, ?_⟩
  · rw [← paramHeaders_sections, inOrder, filter_sectionParts fun _ => rfl,
      paramHeaders_of_documentationLines read]
  · rw [← texts_sections, inOrder, filter_sectionParts fun _ => rfl]

/-- The lines of a block have one division into sections. -/
theorem Accounts.unique
    {config : Config}
    {comments : List Token}
    {lines : List CommentLine}
    {first second : List EntrySection}
    (accounts : Accounts config comments lines first)
    (alsoAccounts : Accounts config comments lines second) :
    second = first :=
  sections_inj (alsoAccounts.inOrder.trans accounts.inOrder.symm)

/-- An entry stands at the line of a comment of the block, whose header has its name. -/
theorem exists_header_of_docs
    {config : Config}
    {comments : List Token}
    {docs : List ParameterDoc}
    {doc : ParameterDoc}
    (answers : DocBlock.docs config comments = .ok docs)
    (member : doc ∈ docs) :
    ∃ comment ∈ comments,
      Header.ofComment? comment = some (.param doc.name) ∧ comment.line = doc.line := by
  obtain ⟨_, lines, last, final, read, runs, finishes, rfl⟩ :=
    exists_run_take_of_docs answers
  obtain ⟨sections, holds, inOrder⟩ :=
    Reader.holds_of_run Reader.sound_start .nothing runs
  obtain ⟨closed, closes, rfl⟩ := map_eq_ok_iff.mp finishes
  obtain rfl := holds.eq_of_close closes
  obtain ⟨entry, isEntry, rfl⟩ := List.mem_map.mp member
  have isLine : (⟨entry.comment, .header entry.name⟩ : CommentLine) ∈ lines := by
    have atHead : ⟨entry.comment, .header entry.name⟩ ∈ entry.lines :=
      List.mem_cons_self
    have inSections := List.mem_flatMap.mpr ⟨entry, isEntry, atHead⟩
    rw [inOrder] at inSections
    exact List.mem_of_mem_filter inSections
  obtain ⟨comment, behindFirst, isRead⟩ := exists_mem_of_linesFrom read isLine
  obtain rfl := CommentLine.comment_of_read isRead
  exact
    ⟨entry.comment, (List.dropWhile_sublist _).subset behindFirst,
      CommentLine.ofComment?_of_read isRead rfl, rfl⟩

/--
The entries of a block that is accepted are those of the sections that account for
its documentation lines, and no other sections do.
-/
theorem docs_account_for_lines
    {config : Config}
    {comments : List Token}
    {docs : List ParameterDoc}
    (answers : DocBlock.docs config comments = .ok docs) :
    ∃ lines sections,
      Accounts config comments lines sections ∧
        (∀ others, Accounts config comments lines others → others = sections) ∧
          docs = sections.map EntrySection.doc := by
  obtain ⟨_, lines, last, final, read, runs, finishes, rfl⟩ :=
    exists_run_take_of_docs answers
  obtain ⟨sections, holds, inOrder⟩ :=
    Reader.holds_of_run Reader.sound_start .nothing runs
  obtain ⟨closed, closes, rfl⟩ := map_eq_ok_iff.mp finishes
  obtain rfl := holds.eq_of_close closes
  have accounts : Accounts config comments lines sections := .of_inOrder read inOrder
  exact ⟨lines, sections, accounts, fun _ => accounts.unique, rfl⟩

/-- A hash with two paragraphs and an option, and a second parameter. -/
def hashBlock : List Token :=
  [⟨.comment, " Reads the settings.", .first⟩,
    ⟨.comment, " @param settings", ⟨2, 1⟩⟩, ⟨.comment, "   Settings.", ⟨3, 1⟩⟩,
    ⟨.comment, "", ⟨4, 1⟩⟩, ⟨.comment, "   More of them.", ⟨5, 1⟩⟩,
    ⟨.comment, " @option settings [Boolean] :enabled", ⟨6, 1⟩⟩,
    ⟨.comment, "   Whether it runs.", ⟨7, 1⟩⟩, ⟨.comment, "", ⟨8, 1⟩⟩,
    ⟨.comment, " @param name", ⟨9, 1⟩⟩, ⟨.comment, "   A name.", ⟨10, 1⟩⟩]

/-- What the block documents. -/
def hashDocs : List ParameterDoc :=
  [{ name := "settings"
     description := "Settings. More of them."
     options := [⟨"settings", "enabled", "Boolean", "Whether it runs.", 6⟩]
     line := 2 },
    { name := "name"
      description := "A name."
      line := 9 }]

/-- The block is accepted, and its lines are accounted for. -/
theorem docs_account_for_hashBlock :
    DocBlock.docs Config.standard hashBlock = .ok hashDocs ∧
      ∃ lines sections,
        Accounts Config.standard hashBlock lines sections ∧
          (∀ others,
              Accounts Config.standard hashBlock lines others → others = sections) ∧
            hashDocs = sections.map EntrySection.doc := by
  have answers : DocBlock.docs Config.standard hashBlock = .ok hashDocs := by
    decide +kernel
  exact ⟨answers, docs_account_for_lines answers⟩

end DocBlock

end DocAudit
