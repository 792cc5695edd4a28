import DocAudit.Proofs.DocBlock.Growth
import DocAudit.Proofs.DocBlock.Trace

namespace DocAudit

/-!
# Every entry is described

Behind a header, nothing but its description may follow, and a blank line is no
description. So every entry and every option that is documented has a description,
unless the block ends at its header. The main statement is `docs_described`.
-/

/-- An option with all that an option documents. -/
structure OptionDoc.Described
    (owner : String)
    (option : OptionDoc) : Prop where
  owned : option.owner = owner
  isWord : Header.IsWord option.name.toList
  solid : DocBlock.Solid option.description

/-- An entry with all that an entry documents. -/
structure ParameterDoc.Described (doc : ParameterDoc) : Prop where
  isWord : Header.IsWord doc.name.toList
  solid : DocBlock.Solid doc.description
  options : ∀ option ∈ doc.options, option.Described doc.name

/-- What holds of every option of an entry, with a description or without. -/
structure OptionDoc.Proper
    (owner : String)
    (option : OptionDoc) : Prop where
  owned : option.owner = owner
  isWord : Header.IsWord option.name.toList
  unpadded : Text.Unpadded option.description.toList

/-- What holds of every entry, with a description or without. -/
structure ParameterDoc.Proper (doc : ParameterDoc) : Prop where
  isWord : Header.IsWord doc.name.toList
  unpadded : Text.Unpadded doc.description.toList
  described : doc.options ≠ [] → doc.description ≠ ""
  options : ∀ option ∈ doc.options, option.Proper doc.name

theorem OptionDoc.Described.proper
    {owner : String}
    {option : OptionDoc}
    (described : option.Described owner) :
    option.Proper owner where
  owned := described.owned
  isWord := described.isWord
  unpadded := described.solid.unpadded

theorem ParameterDoc.Described.proper
    {doc : ParameterDoc}
    (described : doc.Described) :
    doc.Proper where
  isWord := described.isWord
  unpadded := described.solid.unpadded
  described := fun _ => described.solid.nonempty
  options := fun option member => (described.options option member).proper

/-- A line with words for names, or with a text for a description. -/
def CommentLine.Proper (line : CommentLine) : Prop :=
  match line.content with
  | .header name => Header.IsWord name.toList
  | .optionHeader _ _ name => Header.IsWord name.toList
  | .separator => True
  | .description => DocBlock.Solid line.text

theorem CommentLine.proper_of_read
    {config : Config}
    {started : Bool}
    {comment : Token}
    {line : CommentLine}
    (read : CommentLine.read config started comment = .ok (some line)) :
    line.Proper := by
  cases readAs_of_read read with
  | header _ shape =>
      obtain ⟨isWord, _⟩ := Header.ofText?_eq_some_iff.mp shape
      exact isWord
  | optionHeader _ shape =>
      obtain ⟨⟨_, _, isWord⟩, _⟩ := Header.ofText?_eq_some_iff.mp shape
      exact isWord
  | separator => trivial
  | description _ nonblank => exact DocBlock.solid_trimmed nonblank

theorem forall_mem_concat_iff
    {holds : α → Prop}
    {front : List α}
    {last : α} :
    (∀ item ∈ front ++ [last], holds item) ↔ (∀ item ∈ front, holds item) ∧ holds last := by
  rw [List.forall_mem_append, List.forall_mem_singleton]

/-- An item of a list is its last one, or stands in front of it. -/
theorem mem_or_eq_last
    {front before after : List α}
    {last item : α}
    (split : front ++ [last] = before ++ item :: after) :
    item ∈ front ∨ item = last ∧ after = [] := by
  rcases List.eq_nil_or_concat' after with rfl | ⟨between, newest, rfl⟩
  · obtain ⟨_, same⟩ := List.append_inj' split rfl
    exact .inr ⟨(List.singleton_inj.mp same).symm, rfl⟩
  · rw [← List.cons_append, ← List.append_assoc] at split
    obtain ⟨rfl, _⟩ := List.append_inj' split rfl
    exact .inl (by simp)

namespace DocBlock

/-- An option of which the header was read. -/
def OptionDraft.ofHeader
    (hash valueType name : String)
    (comment : Token) :
    OptionDraft where
  owner := hash
  name := name
  valueType := valueType
  line := comment.line
  lines := []

/-! What is described stays described when it grows. -/

theorem OptionDraft.described_describe
    {draft : OptionDraft}
    {owner text : String}
    (owned : draft.owner = owner)
    (isWord : Header.IsWord draft.name.toList)
    (solidFront : draft.lines = [] ∨ Solid (paragraph draft.lines))
    (solid : Solid text) :
    (draft.describe text).doc.Described owner where
  owned := owned
  isWord := isWord
  solid := solid_paragraph_concat solid solidFront

theorem EntryDraft.described_describe
    {draft : EntryDraft}
    {text : String}
    (isWord : Header.IsWord draft.name.toList)
    (options : ∀ option ∈ draft.options, option.Described draft.name)
    (solidFront : draft.lines = [] ∨ Solid (paragraph draft.lines))
    (solid : Solid text) :
    (draft.describe text).entry.Described where
  isWord := isWord
  solid := solid_paragraph_concat solid solidFront
  options := options

/-- An entry is described with one more option when both are described. -/
theorem EntryDraft.described_addOption_iff
    {draft : EntryDraft}
    {option : OptionDoc} :
    (draft.addOption option).entry.Described ↔
      draft.entry.Described ∧ option.Described draft.name := by
  constructor
  · intro described
    obtain ⟨options, added⟩ := forall_mem_concat_iff.mp described.options
    exact ⟨⟨described.isWord, described.solid, options⟩, added⟩
  · rintro ⟨described, added⟩
    have options := forall_mem_concat_iff.mpr ⟨described.options, added⟩
    exact ⟨described.isWord, described.solid, options⟩

/-- A further description line leaves every entry described. -/
theorem Contents.described_describe
    {contents : Contents}
    {text : String}
    (described : ∀ doc ∈ contents.documented, doc.Described)
    (solid : Solid text) :
    ∀ doc ∈ (contents.describe text).documented, doc.Described := by
  rcases contents with ⟨draft?, option?, docs⟩
  cases draft? with
  | none => cases option? <;> exact described
  | some entry =>
      cases option? with
      | none =>
          obtain ⟨finished, isLast⟩ := forall_mem_concat_iff.mp described
          have longer : (entry.describe text).entry.Described :=
            EntryDraft.described_describe isLast.isWord isLast.options (.inr isLast.solid) solid
          exact forall_mem_concat_iff.mpr ⟨finished, longer⟩
      | some option =>
          obtain ⟨finished, isLast⟩ := forall_mem_concat_iff.mp described
          obtain ⟨inEntry, isOption⟩ := EntryDraft.described_addOption_iff.mp isLast
          have longer : (option.describe text).doc.Described entry.name :=
            OptionDraft.described_describe isOption.owned isOption.isWord
              (.inr isOption.solid) solid
          have grown : (entry.addOption (option.describe text).doc).entry.Described :=
            EntryDraft.described_addOption_iff.mpr ⟨inEntry, longer⟩
          exact forall_mem_concat_iff.mpr ⟨finished, grown⟩

/-! What a header leaves to be described, and what may follow it. -/

theorem awaitsDescription_of_get?_table
    {source target : Phase}
    (lookup : table.get? (source, .gotHeader) = some target) :
    target = .awaitingDescription := by
  rw [get?_table] at lookup
  cases source <;> cases lookup <;> rfl

theorem awaitsOptionDescription_of_get?_table
    {source target : Phase}
    (lookup : table.get? (source, .gotOptionHeader) = some target) :
    target = .awaitingOptionDescription := by
  rw [get?_table] at lookup
  cases source <;> cases lookup
  rfl

/-- Behind a header, only a line of its description is accepted. -/
theorem isDescription_of_get?_table
    {contents : Contents}
    {line : CommentLine}
    {source target : Phase}
    (awaits : source = .awaitingDescription ∨ source = .awaitingOptionDescription)
    (lookup : table.get? (source, contents.eventOf line) = some target) :
    line.content = .description := by
  rcases line with ⟨comment, content⟩
  rw [get?_table] at lookup
  rcases awaits with rfl | rfl
  all_goals
    cases content with
    | header => cases lookup
    | optionHeader => cases lookup
    | separator => cases lookup
    | description => rfl

/--
What has no description yet where lines were taken: nothing, or the entry or the option
whose header is the last one of them.
-/
inductive Pending : List CommentLine → Phase → Contents → Prop where
  | nothing
      {taken : List CommentLine}
      {phase : Phase}
      {contents : Contents} :
      (∀ doc ∈ contents.documented, doc.Described) →
      Pending taken phase contents
  | entry
      (before : List CommentLine)
      (comment : Token)
      {name : String}
      {docs : List ParameterDoc} :
      Header.IsWord name.toList →
      (∀ doc ∈ docs, doc.Described) →
      Pending (before ++ [⟨comment, .header name⟩]) .awaitingDescription
        { draft? := some (.ofHeader name comment)
          option? := none
          docs := docs }
  | option
      (before : List CommentLine)
      (comment : Token)
      {hash valueType name : String}
      {entry : EntryDraft}
      {docs : List ParameterDoc} :
      hash = entry.name →
      Header.IsWord name.toList →
      entry.entry.Described →
      (∀ doc ∈ docs, doc.Described) →
      Pending (before ++ [⟨comment, .optionHeader hash valueType name⟩])
        .awaitingOptionDescription
        { draft? := some entry
          option? := some (.ofHeader hash valueType name comment)
          docs := docs }

namespace Pending

variable
  {taken : List CommentLine}
  {phase target : Phase}
  {contents next : Contents}
  {line : CommentLine}

/-- Where nothing is to be described, only a header leaves something to be described. -/
theorem accept_of_described
    (described : ∀ doc ∈ contents.documented, doc.Described)
    (proper : line.Proper)
    (lookup : table.get? (phase, contents.eventOf line) = some target)
    (accepts : contents.accept line = .ok next) :
    Pending (taken ++ [line]) target next := by
  rcases line with ⟨comment, content⟩
  cases content with
  | header name =>
      obtain rfl := awaitsDescription_of_get?_table lookup
      obtain ⟨closed, closes, rfl⟩ := map_eq_ok_iff.mp accepts
      obtain rfl := Contents.eq_of_close closes
      exact .entry taken comment proper described
  | optionHeader hash valueType name =>
      obtain rfl := awaitsOptionDescription_of_get?_table lookup
      obtain ⟨entry, isOpen, sameName, rfl⟩ := Contents.openOption_eq_ok accepts
      unfold Contents.documented at described
      generalize contents.closeOption = closed at isOpen described
      rcases closed with ⟨draft?, option?, docs⟩
      obtain rfl : draft? = some entry := isOpen
      obtain ⟨finished, isLast⟩ := forall_mem_concat_iff.mp described
      exact .option taken comment sameName proper isLast finished
  | separator =>
      cases accepts
      exact .nothing described
  | description =>
      cases accepts
      exact .nothing (Contents.described_describe described proper)

/-- A line that is accepted describes what was to be described, and may be a header itself. -/
theorem accept
    (pending : Pending taken phase contents)
    (proper : line.Proper)
    (lookup : table.get? (phase, contents.eventOf line) = some target)
    (accepts : contents.accept line = .ok next) :
    Pending (taken ++ [line]) target next := by
  cases pending with
  | nothing described => exact accept_of_described described proper lookup accepts
  | @entry before header name docs isWord described =>
      have isDescription := isDescription_of_get?_table (.inl rfl) lookup
      rcases line with ⟨comment, content⟩
      obtain rfl : content = .description := isDescription
      cases accepts
      have isDescribed :
          ((EntryDraft.ofHeader name header).describe comment.trimmed).entry.Described :=
        EntryDraft.described_describe isWord (by simp [EntryDraft.ofHeader]) (.inl rfl) proper
      exact .nothing (forall_mem_concat_iff.mpr ⟨described, isDescribed⟩)
  | @option before header hash valueType name entry docs sameName isWord isEntry described =>
      have isDescription := isDescription_of_get?_table (.inr rfl) lookup
      rcases line with ⟨comment, content⟩
      obtain rfl : content = .description := isDescription
      cases accepts
      have isDescribed :
          ((OptionDraft.ofHeader hash valueType name header).describe
            comment.trimmed).doc.Described entry.name :=
        OptionDraft.described_describe sameName isWord (.inl rfl) proper
      have grown := EntryDraft.described_addOption_iff.mpr ⟨isEntry, isDescribed⟩
      exact .nothing (forall_mem_concat_iff.mpr ⟨described, grown⟩)

end Pending

theorem pending_start : Pending [] .start .blank :=
  .nothing (by simp [Contents.documented, Contents.closeOption, Contents.blank])

/-- Behind the lines that a reader took, at most the last one is to be described. -/
theorem pending_of_run
    {taken lines : List CommentLine}
    {reader last : Reader}
    (pending : Pending taken reader.state reader.contents)
    (proper : ∀ line ∈ lines, line.Proper)
    (runs : Machine.Scan.run Reader.take reader lines = .finished last) :
    Pending (taken ++ lines) last.state last.contents := by
  induction lines generalizing reader taken with
  | nil =>
      cases runs
      rwa [List.append_nil]
  | cons line rest inductionHypothesis =>
      obtain ⟨isProper, restProper⟩ := List.forall_mem_cons.mp proper
      obtain ⟨next, takes, runsOn⟩ := Machine.Scan.run_cons_eq_finished_iff.mp runs
      obtain ⟨target, contents, lookup, accepts, rfl⟩ := Machine.Situation.fire_eq_ok takes
      have pendingNext := pending.accept isProper lookup accepts
      have pendingLast := inductionHypothesis pendingNext restProper runsOn
      rwa [List.append_assoc] at pendingLast

/-! What is documented of a block can be relied on. -/

/-- The last one of the lines is this header, and stands in this line of the file. -/
def EndsAt
    (lines : List CommentLine)
    (header : CommentLine.Content)
    (line : Int) :
    Prop :=
  ∃ comment, lines.getLast? = some ⟨comment, header⟩ ∧ comment.line = line

/--
What holds of the entries of a block with these lines. An entry, or an option, without
a description is the last one of all, and its header is the last line.
-/
structure WellDescribed
    (lines : List CommentLine)
    (docs : List ParameterDoc) : Prop where
  proper : ∀ doc ∈ docs, doc.Proper
  entry :
    ∀ front doc back,
      docs = front ++ doc :: back →
        doc.description = "" → back = [] ∧ EndsAt lines (.header doc.name) doc.line
  option :
    ∀ front doc back,
      docs = front ++ doc :: back →
        ∀ before option after,
          doc.options = before ++ option :: after →
            option.description = "" →
              back = [] ∧
                after = [] ∧
                  EndsAt lines
                    (.optionHeader option.owner option.valueType option.name) option.line

namespace WellDescribed

variable
  {lines : List CommentLine}
  {docs : List ParameterDoc}

theorem of_described
    (described : ∀ doc ∈ docs, doc.Described) :
    WellDescribed lines docs where
  proper := fun doc member => (described doc member).proper
  entry := by
    rintro front doc back rfl isEmpty
    exact ((described doc (by simp)).solid.nonempty isEmpty).elim
  option := by
    rintro front doc back rfl before option after shape isEmpty
    have isDescribed := (described doc (by simp)).options option (by simp [shape])
    exact (isDescribed.solid.nonempty isEmpty).elim

/-- Behind entries that are described, what is said of each one is said of the last. -/
theorem concat
    {last : ParameterDoc}
    (described : ∀ doc ∈ docs, doc.Described)
    (proper : last.Proper)
    (entry : last.description = "" → EndsAt lines (.header last.name) last.line)
    (option :
      ∀ before option after,
        last.options = before ++ option :: after →
          option.description = "" →
            after = [] ∧
              EndsAt lines
                (.optionHeader option.owner option.valueType option.name) option.line) :
    WellDescribed lines (docs ++ [last]) where
  proper :=
    forall_mem_concat_iff.mpr ⟨fun doc member => (described doc member).proper, proper⟩
  entry := by
    intro front doc back split isEmpty
    rcases mem_or_eq_last split with member | ⟨rfl, rfl⟩
    · exact ((described doc member).solid.nonempty isEmpty).elim
    · exact ⟨rfl, entry isEmpty⟩
  option := by
    intro front doc back split before held after shape isEmpty
    rcases mem_or_eq_last split with member | ⟨rfl, rfl⟩
    · have isDescribed := (described doc member).options held (by simp [shape])
      exact (isDescribed.solid.nonempty isEmpty).elim
    · exact ⟨rfl, option before held after shape isEmpty⟩

/-- An entry of which only the header was read. -/
theorem proper_ofHeader
    {name : String}
    (isWord : Header.IsWord name.toList)
    (comment : Token) :
    (EntryDraft.ofHeader name comment).entry.Proper where
  isWord := isWord
  unpadded := Text.unpadded_nil
  described := fun someOption => (someOption rfl).elim
  options := by simp [EntryDraft.ofHeader, EntryDraft.entry]

/-- A described entry with an option of which only the header was read. -/
theorem proper_addOption
    {draft : EntryDraft}
    {name : String}
    (described : draft.entry.Described)
    (isWord : Header.IsWord name.toList)
    (valueType : String)
    (comment : Token) :
    (draft.addOption
      (OptionDraft.ofHeader draft.name valueType name comment).doc).entry.Proper where
  isWord := described.isWord
  unpadded := described.solid.unpadded
  described := fun _ => described.solid.nonempty
  options :=
    forall_mem_concat_iff.mpr
      ⟨described.proper.options, ⟨rfl, isWord, Text.unpadded_nil⟩⟩

/-- What is to be described at the end of a block stays without a description. -/
theorem of_pending
    {phase : Phase}
    {contents : Contents}
    (pending : Pending lines phase contents) :
    WellDescribed lines contents.documented := by
  cases pending with
  | nothing described => exact of_described described
  | @entry before header name docs isWord described =>
      refine concat described (proper_ofHeader isWord header) ?_ ?_
      · intro _
        exact ⟨header, List.getLast?_concat, rfl⟩
      · intro front option after shape
        simp [EntryDraft.ofHeader, EntryDraft.entry] at shape
  | @option before header hash valueType name entry docs sameName isWord isEntry described =>
      obtain rfl := sameName
      have proper := proper_addOption isEntry isWord valueType header
      refine concat described proper ?_ ?_
      · intro isEmpty
        exact (isEntry.solid.nonempty isEmpty).elim
      · intro front option after shape isEmpty
        rcases mem_or_eq_last shape with member | ⟨rfl, rfl⟩
        · exact ((isEntry.options option member).solid.nonempty isEmpty).elim
        · exact ⟨rfl, header, List.getLast?_concat, rfl⟩

end WellDescribed

/--
Where a block is accepted, an entry without a description is the last one, has no
options, and its header is the last line that is not skipped; and so for an option
without a description, which is the last one of the last entry. Names are words, an
option belongs to its entry, and no description has a blank character at an end.
-/
theorem docs_described
    {config : Config}
    {comments : List Token}
    {docs : List ParameterDoc}
    (answers : DocBlock.docs config comments = .ok docs) :
    ∃ lines, classified config false comments = .ok lines ∧ WellDescribed lines docs := by
  obtain ⟨_, lines, last, final, read, runs, finishes, rfl⟩ :=
    exists_run_take_of_docs answers
  have proper : ∀ line ∈ lines, line.Proper := by
    intro line member
    obtain ⟨comment, _, isRead⟩ := exists_mem_of_linesFrom read member
    exact CommentLine.proper_of_read isRead
  have pending := pending_of_run pending_start proper runs
  rw [Reader.docs_of_finish finishes]
  exact ⟨lines, classified_eq_documentationLines.trans read, .of_pending pending⟩

/-- The lines of a hash, up to the header of an option. -/
def unfinishedBlock : List Token :=
  [⟨.comment, " @param settings", .first⟩, ⟨.comment, "   Settings.", ⟨2, 1⟩⟩,
    ⟨.comment, " @option settings [Boolean] :enabled", ⟨3, 1⟩⟩]

/-- What the lines document. -/
def unfinishedDocs : List ParameterDoc :=
  [{ name := "settings"
     description := "Settings."
     options := [⟨"settings", "enabled", "Boolean", "", 3⟩]
     line := 1 }]

/-- The option has no description, and its header is the last line. -/
theorem docs_described_unfinishedBlock :
    DocBlock.docs Config.standard unfinishedBlock = .ok unfinishedDocs ∧
      ∃ lines,
        classified Config.standard false unfinishedBlock = .ok lines ∧
          WellDescribed lines unfinishedDocs := by
  have answers : DocBlock.docs Config.standard unfinishedBlock = .ok unfinishedDocs := by
    decide +kernel
  exact ⟨answers, docs_described answers⟩

end DocBlock

end DocAudit
