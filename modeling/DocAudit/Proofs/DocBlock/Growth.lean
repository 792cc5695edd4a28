import DocAudit.Proofs.DocBlock.Paragraph
import DocAudit.Proofs.DocBlock.Safety

namespace DocAudit

/-!
# Blocks that go on

A block that ends earlier documents what was read of it so far. The comments behind
that place add lines to the description that is open, options to the entry that is
open, and further entries; what is finished stays as it is. The main statement is
`docs_of_append`.
-/

/-- Items of which at most the last one goes on to grow, before others follow. -/
inductive GrowsAtEnd (grows : α → α → Prop) : List α → List α → Prop where
  | nothing
      (later : List α) :
      GrowsAtEnd grows [] later
  | last
      (front : List α)
      {item grown : α}
      (behind : List α) :
      grows item grown →
      GrowsAtEnd grows (front ++ [item]) (front ++ grown :: behind)

namespace GrowsAtEnd

variable
  {grows : α → α → Prop}
  {first second third : List α}

/-- Items that stay as they are, with others behind them. -/
theorem append
    (unchanged : ∀ item, grows item item)
    (items behind : List α) :
    GrowsAtEnd grows items (items ++ behind) := by
  rcases List.eq_nil_or_concat' items with rfl | ⟨front, item, rfl⟩
  · exact .nothing behind
  · rw [List.append_assoc]
    exact .last front behind (unchanged item)

theorem refl
    (unchanged : ∀ item, grows item item)
    (items : List α) :
    GrowsAtEnd grows items items := by
  have isAppended := append unchanged items []
  rwa [List.append_nil] at isAppended

/-- The last item is where it was, though it may have grown. -/
theorem exists_of_concat
    {front later : List α}
    {item : α}
    (grown : GrowsAtEnd grows (front ++ [item]) later) :
    ∃ next behind, later = front ++ next :: behind ∧ grows item next := by
  generalize isLast : front ++ [item] = items at grown
  cases grown with
  | nothing => simp at isLast
  | last others behind itemGrows =>
      obtain ⟨rfl, sameItem⟩ := List.append_inj' isLast rfl
      obtain rfl := List.singleton_inj.mp sameItem
      exact ⟨_, behind, rfl, itemGrows⟩

theorem trans
    (grows_trans :
      ∀ {item grown later : α}, grows item grown → grows grown later → grows item later)
    (before : GrowsAtEnd grows first second)
    (after : GrowsAtEnd grows second third) :
    GrowsAtEnd grows first third := by
  cases before with
  | nothing => exact .nothing third
  | @last front item grown behind itemGrows =>
      -- The item that grew first grows on if it is still the last one, or else is final.
      rcases List.eq_nil_or_concat' behind with rfl | ⟨between, newest, rfl⟩
      · obtain ⟨next, behind, rfl, grownGrows⟩ := after.exists_of_concat
        exact .last front behind (grows_trans itemGrows grownGrows)
      · rw [← List.cons_append, ← List.append_assoc] at after
        obtain ⟨next, behind, rfl, _⟩ := after.exists_of_concat
        rw [List.append_assoc]
        exact .last front _ itemGrows

/-- Growing never takes an item away. -/
theorem length_le (grown : GrowsAtEnd grows first second) : first.length ≤ second.length := by
  cases grown with
  | nothing => exact Nat.zero_le _
  | last front behind => simp

end GrowsAtEnd

/-- An option whose description may have been longer. -/
structure OptionDoc.GrowsTo (option grown : OptionDoc) : Prop where
  owner : grown.owner = option.owner
  name : grown.name = option.name
  valueType : grown.valueType = option.valueType
  line : grown.line = option.line
  description : option.description.toList <+: grown.description.toList

theorem OptionDoc.GrowsTo.refl (option : OptionDoc) : option.GrowsTo option :=
  ⟨rfl, rfl, rfl, rfl, List.prefix_rfl⟩

theorem OptionDoc.GrowsTo.trans
    {option grown later : OptionDoc}
    (first : option.GrowsTo grown)
    (second : grown.GrowsTo later) :
    option.GrowsTo later where
  owner := second.owner.trans first.owner
  name := second.name.trans first.name
  valueType := second.valueType.trans first.valueType
  line := second.line.trans first.line
  description := first.description.trans second.description

/-- An entry whose description may have been longer, or whose options may have grown. -/
structure ParameterDoc.GrowsTo (doc grown : ParameterDoc) : Prop where
  name : grown.name = doc.name
  line : grown.line = doc.line
  description : doc.description.toList <+: grown.description.toList
  options : GrowsAtEnd OptionDoc.GrowsTo doc.options grown.options

theorem ParameterDoc.GrowsTo.refl (doc : ParameterDoc) : doc.GrowsTo doc :=
  ⟨rfl, rfl, List.prefix_rfl, .refl OptionDoc.GrowsTo.refl doc.options⟩

theorem ParameterDoc.GrowsTo.trans
    {doc grown later : ParameterDoc}
    (first : doc.GrowsTo grown)
    (second : grown.GrowsTo later) :
    doc.GrowsTo later where
  name := second.name.trans first.name
  line := second.line.trans first.line
  description := first.description.trans second.description
  options := first.options.trans OptionDoc.GrowsTo.trans second.options

namespace DocBlock

/-- A further line makes the description of an option longer. -/
theorem OptionDraft.grows_describe
    (draft : OptionDraft)
    (text : String) :
    draft.doc.GrowsTo (draft.describe text).doc :=
  ⟨rfl, rfl, rfl, rfl, paragraph_prefix_append draft.lines [text]⟩

theorem EntryDraft.grows_describe
    (draft : EntryDraft)
    (text : String) :
    draft.entry.GrowsTo (draft.describe text).entry :=
  ⟨rfl, rfl, paragraph_prefix_append draft.lines [text],
    .refl OptionDoc.GrowsTo.refl draft.options⟩

theorem EntryDraft.grows_addOption
    (draft : EntryDraft)
    (option : OptionDoc) :
    draft.entry.GrowsTo (draft.addOption option).entry :=
  ⟨rfl, rfl, List.prefix_rfl, .append OptionDoc.GrowsTo.refl draft.options [option]⟩

/-- An entry grows with the last one of its options. -/
theorem EntryDraft.addOption_grows
    (draft : EntryDraft)
    {option grown : OptionDoc}
    (grows : option.GrowsTo grown) :
    (draft.addOption option).entry.GrowsTo (draft.addOption grown).entry :=
  ⟨rfl, rfl, List.prefix_rfl, .last draft.options [] grows⟩

namespace Contents

/-- The entries that a reader documents if the block ends here. -/
def documented (contents : Contents) : List ParameterDoc :=
  contents.closeOption.docs ++ contents.closeOption.draft?.toList.map EntryDraft.entry

/-- What was documented so far may have grown into what is documented now. -/
def GrowsTo (contents next : Contents) : Prop :=
  GrowsAtEnd ParameterDoc.GrowsTo contents.documented next.documented

theorem GrowsTo.refl (contents : Contents) : contents.GrowsTo contents :=
  GrowsAtEnd.refl ParameterDoc.GrowsTo.refl contents.documented

theorem GrowsTo.trans
    {contents next later : Contents}
    (first : contents.GrowsTo next)
    (second : next.GrowsTo later) :
    contents.GrowsTo later :=
  GrowsAtEnd.trans ParameterDoc.GrowsTo.trans first second

variable {contents : Contents}

/-- Closing all that is open finishes the entries that are documented. -/
theorem eq_of_close
    {closed : Contents}
    (closes : contents.closeOption.closeEntry = .ok closed) :
    closed = { blank with docs := contents.documented } := by
  have noOption := option?_closeOption contents
  unfold documented
  generalize contents.closeOption = open? at closes noOption
  rcases open? with ⟨draft?, option?, docs⟩
  obtain rfl : option? = none := noOption
  cases draft? with
  | none =>
      cases closes
      simp [blank]
  | some entry =>
      obtain ⟨doc, finishes, rfl⟩ := map_eq_ok_iff.mp closes
      obtain rfl := EntryDraft.eq_entry_of_doc finishes
      rfl

/-- A parameter header adds an entry. -/
theorem grows_openEntry
    {opened : Contents}
    {name : String}
    {comment : Token}
    (opens : contents.openEntry name comment = .ok opened) :
    contents.GrowsTo opened := by
  obtain ⟨closed, closes, rfl⟩ := map_eq_ok_iff.mp opens
  obtain rfl := eq_of_close closes
  exact .append ParameterDoc.GrowsTo.refl contents.documented _

/-- An option header adds an option to the last entry. -/
theorem grows_openOption
    {opened : Contents}
    {hash valueType name : String}
    {comment : Token}
    (opens : contents.openOption hash valueType name comment = .ok opened) :
    contents.GrowsTo opened := by
  obtain ⟨entry, isOpen, _, rfl⟩ := openOption_eq_ok opens
  unfold GrowsTo documented
  generalize contents.closeOption = closed at isOpen
  rcases closed with ⟨draft?, option?, docs⟩
  obtain rfl : draft? = some entry := isOpen
  exact .last docs [] (entry.grows_addOption _)

/-- A description line is added to the last option, or to the last entry. -/
theorem grows_describe
    (contents : Contents)
    (text : String) :
    contents.GrowsTo (contents.describe text) := by
  rcases contents with ⟨draft?, option?, docs⟩
  cases option? with
  | some option =>
      cases draft? with
      | some entry => exact .last docs [] (entry.addOption_grows (option.grows_describe text))
      | none => exact GrowsAtEnd.refl ParameterDoc.GrowsTo.refl _
  | none =>
      cases draft? with
      | some entry => exact .last docs [] (entry.grows_describe text)
      | none => exact .refl _

theorem grows_accept
    {next : Contents}
    {line : CommentLine}
    (accepts : contents.accept line = .ok next) :
    contents.GrowsTo next := by
  rcases line with ⟨comment, content⟩
  cases content with
  | header name => exact grows_openEntry accepts
  | optionHeader hash valueType name => exact grows_openOption accepts
  | separator =>
      cases accepts
      exact .refl contents
  | description =>
      cases accepts
      exact grows_describe contents _

end Contents

namespace Reader

variable
  {config : Config}
  {reader last final : Reader}
  {comment : Token}
  {comments : List Token}

/-- Reading a comment, or skipping it, takes nothing back. -/
theorem grows_step
    (steps : step config reader comment = .ok last) :
    reader.contents.GrowsTo last.contents := by
  unfold step at steps
  split at steps
  · cases steps
  · cases steps
    exact .refl reader.contents
  · obtain ⟨target, contents, _, accepts, rfl⟩ := Machine.Situation.fire_eq_ok steps
    exact Contents.grows_accept accepts

theorem grows_run
    (runs : Machine.Scan.run (step config) reader comments = .finished last) :
    reader.contents.GrowsTo last.contents :=
  Machine.Scan.holds_of_run
    (fun before steps => Contents.GrowsTo.trans before (grows_step steps))
    (.refl reader.contents) runs

/-- At the end of a block, the reader answers what it documents there. -/
theorem docs_of_finish
    (finishes : last.finish = .ok final) :
    final.contents.docs = last.contents.documented := by
  obtain ⟨closed, closes, rfl⟩ := map_eq_ok_iff.mp finishes
  obtain rfl := Contents.eq_of_close closes
  rfl

end Reader

/--
Where a block is accepted, so is every beginning of it, and what it documents is final
but for its last entry: the whole block documents the entries in front of it as they
are, and it with its name and its line, with a description that begins with its
description, and with options that begin with its options, of which again only the
last one may have grown, by a longer description.
-/
theorem docs_of_append
    {config : Config}
    {front back : List Token}
    {docs : List ParameterDoc}
    (answers : DocBlock.docs config (front ++ back) = .ok docs) :
    ∃ earlier,
      DocBlock.docs config front = .ok earlier ∧
        earlier.length ≤ docs.length ∧ GrowsAtEnd ParameterDoc.GrowsTo earlier docs := by
  obtain ⟨valid, last, final, runs, finishes, rfl⟩ := exists_run_of_docs answers
  obtain ⟨middle, inFront, behind⟩ := Machine.Scan.run_append_eq_finished_iff.mp runs
  obtain ⟨cutOff, ends⟩ := (Reader.steady_of_run inFront).sound.exists_finish
  have answersFront :
      DocBlock.docs config front = .ok middle.contents.documented := by
    rw [docs_of_finished (validate_left valid) inFront, ends, ← Reader.docs_of_finish ends]
    rfl
  have grows :
      GrowsAtEnd ParameterDoc.GrowsTo middle.contents.documented final.contents.docs := by
    rw [Reader.docs_of_finish finishes]
    exact Reader.grows_run behind
  exact ⟨_, answersFront, grows.length_le, grows⟩

/-- The lines of a hash, up to the first line of the description of an option. -/
def openedBlock : List Token :=
  [⟨.comment, " @param settings", .first⟩, ⟨.comment, "   Settings.", ⟨2, 1⟩⟩,
    ⟨.comment, " @option settings [Boolean] :enabled", ⟨3, 1⟩⟩,
    ⟨.comment, "   Whether it", ⟨4, 1⟩⟩]

/-- The rest of the description, and a second parameter. -/
def remainingBlock : List Token :=
  [⟨.comment, "   runs.", ⟨5, 1⟩⟩, ⟨.comment, "", ⟨6, 1⟩⟩,
    ⟨.comment, " @param name", ⟨7, 1⟩⟩, ⟨.comment, "   A name.", ⟨8, 1⟩⟩]

/-- What both parts document together. -/
def remainingDocs : List ParameterDoc :=
  [{ name := "settings"
     description := "Settings."
     options := [⟨"settings", "enabled", "Boolean", "Whether it runs.", 3⟩]
     line := 1 },
    { name := "name"
      description := "A name."
      line := 7 }]

/-- The first part alone documents the option with the beginning of its description. -/
theorem docs_of_append_remainingBlock :
    DocBlock.docs Config.standard (openedBlock ++ remainingBlock) = .ok remainingDocs ∧
      ∃ earlier,
        DocBlock.docs Config.standard openedBlock = .ok earlier ∧
          earlier.length ≤ remainingDocs.length ∧
            GrowsAtEnd ParameterDoc.GrowsTo earlier remainingDocs := by
  have answers :
      DocBlock.docs Config.standard (openedBlock ++ remainingBlock) = .ok remainingDocs := by
    decide +kernel
  exact ⟨answers, docs_of_append answers⟩

end DocBlock

end DocAudit
