import DocAudit.DocBlock.Reader

namespace DocAudit.DocBlock

/-!
# Options stay with their entry

An option header is accepted only inside the entry that it names. Every option
that a reader holds, open or finished, therefore belongs to the entry that is
open, and closing an entry never finds an option of another one.
-/

theorem EntryDraft.exists_doc
    {draft : EntryDraft}
    (owned : ∀ option ∈ draft.options, option.owner = draft.name) :
    ∃ doc, draft.doc = .ok doc := by
  have noForeign :
      (draft.options.find? fun option => decide (option.owner ≠ draft.name)) = none := by
    rw [List.find?_eq_none]
    intro option member
    simp [owned option member]
  unfold EntryDraft.doc ParameterDoc.checked ParameterDoc.violation?
  simp only [noForeign, Option.map_none]
  exact ⟨_, rfl⟩

namespace Contents

/-- Every option that is held belongs to the entry that is open. -/
structure Owned (contents : Contents) : Prop where
  finished :
    ∀ entry ∈ contents.draft?,
      ∀ option ∈ entry.options, option.owner = entry.name
  pending :
    ∀ option ∈ contents.option?,
      ∃ entry ∈ contents.draft?, option.owner = entry.name

theorem owned_blank : Owned blank where
  finished := by simp [blank]
  pending := by simp [blank]

theorem option?_closeOption (contents : Contents) :
    contents.closeOption.option? = none := by
  rcases contents with ⟨draft?, option?, docs⟩
  cases option? <;> cases draft? <;> rfl

theorem draftName?_closeOption (contents : Contents) :
    contents.closeOption.draft?.map EntryDraft.name =
      contents.draft?.map EntryDraft.name := by
  rcases contents with ⟨draft?, option?, docs⟩
  cases option? <;> cases draft? <;> rfl

theorem Owned.closeOption
    {contents : Contents}
    (owned : Owned contents) :
    Owned contents.closeOption := by
  constructor
  · rcases contents with ⟨draft?, option?, docs⟩
    cases option? with
    | none => exact owned.finished
    | some option =>
        obtain ⟨entry, isOpen, belongs⟩ := owned.pending option rfl
        have finished := owned.finished entry isOpen
        obtain rfl : draft? = some entry := isOpen
        intro closed isClosed held member
        obtain rfl : entry.addOption option.doc = closed := Option.some.inj isClosed
        rcases List.mem_append.mp member with old | new
        · exact finished held old
        · obtain rfl := List.mem_singleton.mp new
          exact belongs
  · simp [option?_closeOption]

/-- What is open can always be closed. -/
theorem Owned.exists_closeEntry
    {contents : Contents}
    (owned : Owned contents) :
    ∃ docs,
      contents.closeEntry =
        .ok { contents with draft? := none, docs := docs } := by
  rcases contents with ⟨draft?, option?, docs⟩
  cases draft? with
  | none => exact ⟨docs, rfl⟩
  | some entry =>
      obtain ⟨doc, finished⟩ := EntryDraft.exists_doc (owned.finished entry rfl)
      exact ⟨docs ++ [doc], by simp [closeEntry, finished, Except.map]⟩

/-- An entry can always be opened, and nothing but its header is held then. -/
theorem Owned.exists_openEntry
    {contents : Contents}
    (owned : Owned contents)
    (name : String)
    (comment : Token) :
    ∃ docs,
      contents.openEntry name comment =
        .ok
          { draft? := some (.ofHeader name comment)
            option? := none
            docs := docs } := by
  obtain ⟨docs, closes⟩ := owned.closeOption.exists_closeEntry
  refine ⟨docs, ?_⟩
  unfold openEntry
  simp [closes, Except.map, option?_closeOption]

/-- An option that is opened names the entry that is open, and closes the option before it. -/
theorem openOption_eq_ok
    {contents opened : Contents}
    {hash valueType name : String}
    {comment : Token}
    (opens : contents.openOption hash valueType name comment = .ok opened) :
    ∃ entry,
      contents.closeOption.draft? = some entry ∧
        hash = entry.name ∧
          opened =
            { contents.closeOption with
              option? :=
                some
                  { owner := hash
                    name := name
                    valueType := valueType
                    line := comment.line
                    lines := [] } } := by
  unfold openOption at opens
  dsimp only at opens
  split at opens
  · cases opens
  · rename_i entry isOpen
    split at opens
    · rename_i sameName
      cases opens
      exact ⟨entry, isOpen, sameName, rfl⟩
    · cases opens

/-- An option header of the open entry is accepted. -/
theorem exists_openOption
    {contents : Contents}
    {hash : String}
    (isOpen : contents.draft?.map EntryDraft.name = some hash)
    (valueType name : String)
    (comment : Token) :
    ∃ opened, contents.openOption hash valueType name comment = .ok opened := by
  rw [← draftName?_closeOption, Option.map_eq_some_iff] at isOpen
  obtain ⟨entry, closed, rfl⟩ := isOpen
  simp only [openOption, closed, if_pos]
  exact ⟨_, rfl⟩

/-- An option header of another name is refused, whatever is open besides. -/
theorem openOption_eq_error
    {contents : Contents}
    {entryName hash : String}
    (isOpen : contents.draft?.map EntryDraft.name = some entryName)
    (foreign : entryName ≠ hash)
    (valueType name : String)
    (comment : Token) :
    contents.openOption hash valueType name comment =
      .error (.unreadable (.foreignOption comment)) := by
  rw [← draftName?_closeOption, Option.map_eq_some_iff] at isOpen
  obtain ⟨entry, closed, rfl⟩ := isOpen
  have otherName : ¬ hash = entry.name := fun same => foreign same.symm
  simp only [openOption, closed, if_neg otherName]

theorem Owned.openOption
    {contents opened : Contents}
    {hash valueType name : String}
    {comment : Token}
    (owned : Owned contents)
    (opens : contents.openOption hash valueType name comment = .ok opened) :
    Owned opened := by
  obtain ⟨entry, isOpen, sameName, rfl⟩ := openOption_eq_ok opens
  refine ⟨owned.closeOption.finished, ?_⟩
  rintro option ⟨⟩
  exact ⟨entry, isOpen, sameName⟩

theorem Owned.describe
    {contents : Contents}
    (owned : Owned contents)
    (text : String) :
    Owned (contents.describe text) := by
  rcases contents with ⟨draft?, option?, docs⟩
  cases option? with
  | some option =>
      refine ⟨owned.finished, ?_⟩
      rintro described ⟨⟩
      exact owned.pending option rfl
  | none =>
      cases draft? with
      | none => exact owned
      | some entry =>
          refine ⟨?_, by simp [Contents.describe]⟩
          rintro described ⟨⟩
          exact owned.finished entry rfl

/-- An accepted line leaves every option with its entry. -/
theorem Owned.accept
    {contents next : Contents}
    {line : CommentLine}
    (owned : Owned contents)
    (accepts : contents.accept line = .ok next) :
    Owned next := by
  rcases line with ⟨comment, content⟩
  cases content with
  | header name =>
      obtain ⟨docs, opens⟩ := owned.exists_openEntry name comment
      obtain rfl : _ = next := Except.ok.inj (opens.symm.trans accepts)
      exact ⟨by simp [EntryDraft.ofHeader], by simp⟩
  | optionHeader hash valueType name =>
      exact owned.openOption accepts
  | separator =>
      cases accepts
      exact owned
  | description =>
      cases accepts
      exact owned.describe _

end Contents

end DocAudit.DocBlock
