import DocAudit.Proofs.DocBlock.Names

namespace DocAudit

/-!
# Sections of a block

The documentation lines of a block fall into sections, one for each parameter
header: the header, the description lines behind it, and the options, each with
the description lines of its own. Each section says what it is documented as. The
lines of sections, one after the other, tell the sections apart.
-/

namespace DocBlock

/-- Comments as lines of a description. -/
def descriptions (comments : List Token) : List CommentLine :=
  comments.map fun comment => ⟨comment, .description⟩

/-- An option header and the description lines behind it. -/
structure OptionSection where
  comment : Token
  hash : String
  valueType : String
  name : String
  described : List Token
  deriving Repr, DecidableEq

namespace OptionSection

/-- The lines of an option. -/
def lines (option : OptionSection) : List CommentLine :=
  ⟨option.comment, .optionHeader option.hash option.valueType option.name⟩ ::
    descriptions option.described

/-- The texts of the description lines of an option. -/
def texts (option : OptionSection) : List String :=
  option.described.map Token.trimmed

/-- What an option is documented as. -/
def doc (option : OptionSection) : OptionDoc where
  owner := option.hash
  name := option.name
  valueType := option.valueType
  description := paragraph option.texts
  line := option.comment.line

/-- The draft of an option of which the lines were read. -/
def draft (option : OptionSection) : OptionDraft where
  owner := option.hash
  name := option.name
  valueType := option.valueType
  line := option.comment.line
  lines := option.texts

/-- Append a description line. -/
def describe
    (option : OptionSection)
    (comment : Token) :
    OptionSection :=
  { option with described := option.described ++ [comment] }

end OptionSection

/-- A parameter header, the description lines behind it, and its options. -/
structure EntrySection where
  comment : Token
  name : String
  described : List Token
  options : List OptionSection
  deriving Repr, DecidableEq

namespace EntrySection

/-- The lines of an entry. -/
def lines (entry : EntrySection) : List CommentLine :=
  ⟨entry.comment, .header entry.name⟩ ::
    (descriptions entry.described ++ entry.options.flatMap OptionSection.lines)

/-- The texts of the description lines of an entry, without those of its options. -/
def texts (entry : EntrySection) : List String :=
  entry.described.map Token.trimmed

/-- The texts of all description lines of an entry in order. -/
def allTexts (entry : EntrySection) : List String :=
  entry.texts ++ entry.options.flatMap OptionSection.texts

/-- What an entry is documented as. -/
def doc (entry : EntrySection) : ParameterDoc where
  name := entry.name
  description := paragraph entry.texts
  options := entry.options.map OptionSection.doc
  line := entry.comment.line

/-- The draft of an entry of which the lines were read. -/
def draft (entry : EntrySection) : EntryDraft where
  name := entry.name
  line := entry.comment.line
  lines := entry.texts
  options := entry.options.map OptionSection.doc

/-- Append a description line in front of the options. -/
def describe
    (entry : EntrySection)
    (comment : Token) :
    EntrySection :=
  { entry with described := entry.described ++ [comment] }

/-- Append an option. -/
def addOption
    (entry : EntrySection)
    (option : OptionSection) :
    EntrySection :=
  { entry with options := entry.options ++ [option] }

end EntrySection

end DocBlock

/-- Whether a line belongs to a section: every line does but a separator. -/
def CommentLine.isSectionPart (line : CommentLine) : Bool :=
  decide (line.content ≠ .separator)

/-- Whether a line is a description line. -/
def CommentLine.isDescription (line : CommentLine) : Bool :=
  decide (line.content = .description)

/-- Whether a line is a parameter header. -/
def CommentLine.isParamHeader (line : CommentLine) : Bool :=
  line.content.headerName?.isSome

/-- Whether a line is an option header. -/
def CommentLine.isOptionHeader (line : CommentLine) : Bool :=
  match line.content with
  | .optionHeader _ _ _ => true
  | _ => false

namespace DocBlock

/-! Every line that is appended to a section becomes its last one. -/

theorem descriptions_append (front back : List Token) :
    descriptions (front ++ back) = descriptions front ++ descriptions back :=
  List.map_append

theorem OptionSection.lines_describe
    (option : OptionSection)
    (comment : Token) :
    (option.describe comment).lines = option.lines ++ [⟨comment, .description⟩] := by
  simp only [lines, describe, descriptions_append, List.cons_append]
  rfl

theorem EntrySection.lines_addOption
    (entry : EntrySection)
    (option : OptionSection) :
    (entry.addOption option).lines = entry.lines ++ option.lines := by
  simp [lines, addOption]

/-- Behind the header no option stands in the way. -/
theorem EntrySection.lines_describe
    {entry : EntrySection}
    (noOption : entry.options = [])
    (comment : Token) :
    (entry.describe comment).lines = entry.lines ++ [⟨comment, .description⟩] := by
  simp [lines, describe, descriptions, noOption]

theorem EntrySection.draft_addOption
    (entry : EntrySection)
    (option : OptionSection) :
    entry.draft.addOption option.doc = (entry.addOption option).draft := by
  simp [draft, addOption, EntryDraft.addOption, texts]

/-- A draft that is closed is the entry of its section. -/
theorem EntrySection.doc_of_draft
    {entry : EntrySection}
    {doc : ParameterDoc}
    (finished : entry.draft.doc = .ok doc) :
    doc = entry.doc :=
  EntryDraft.eq_entry_of_doc finished

/-! What the lines of sections are made of. -/

theorem paramHeaders_descriptions (comments : List Token) :
    (descriptions comments).filter CommentLine.isParamHeader = [] := by
  simp [descriptions, CommentLine.isParamHeader, CommentLine.Content.headerName?]

theorem texts_descriptions (comments : List Token) :
    ((descriptions comments).filter CommentLine.isDescription).map CommentLine.text =
      comments.map Token.trimmed := by
  have allKept :
      (descriptions comments).filter CommentLine.isDescription = descriptions comments := by
    apply List.filter_eq_self.mpr
    intro line member
    obtain ⟨comment, _, rfl⟩ := List.mem_map.mp member
    rfl
  rw [allKept, descriptions, List.map_map]
  rfl

theorem OptionSection.paramHeaders_lines (option : OptionSection) :
    option.lines.filter CommentLine.isParamHeader = [] :=
  paramHeaders_descriptions option.described

theorem OptionSection.texts_lines (option : OptionSection) :
    (option.lines.filter CommentLine.isDescription).map CommentLine.text = option.texts :=
  texts_descriptions option.described

theorem EntrySection.paramHeaders_lines (entry : EntrySection) :
    (entry.lines.filter CommentLine.isParamHeader).map CommentLine.comment =
      [entry.comment] := by
  have inOptions :
      (entry.options.flatMap OptionSection.lines).filter CommentLine.isParamHeader = [] := by
    simp [List.filter_flatMap, OptionSection.paramHeaders_lines]
  have behind :
      (descriptions entry.described ++ entry.options.flatMap OptionSection.lines).filter
          CommentLine.isParamHeader =
        [] := by
    rw [List.filter_append, paramHeaders_descriptions, inOptions, List.append_nil]
  rw [lines, List.filter_cons_of_pos rfl, behind]
  rfl

theorem EntrySection.texts_lines (entry : EntrySection) :
    (entry.lines.filter CommentLine.isDescription).map CommentLine.text =
      entry.allTexts := by
  have inOptions :
      ((entry.options.flatMap OptionSection.lines).filter CommentLine.isDescription).map
          CommentLine.text =
        entry.options.flatMap OptionSection.texts := by
    simp only [List.filter_flatMap, List.map_flatMap, OptionSection.texts_lines]
  rw [lines, List.filter_cons_of_neg Bool.false_ne_true, List.filter_append,
    List.map_append, texts_descriptions, inOptions]
  rfl

theorem optionHeaders_descriptions (comments : List Token) :
    (descriptions comments).filter CommentLine.isOptionHeader = [] := by
  simp [descriptions, CommentLine.isOptionHeader]

theorem OptionSection.optionHeaders_lines (option : OptionSection) :
    (option.lines.filter CommentLine.isOptionHeader).map CommentLine.comment =
      [option.comment] := by
  rw [lines, List.filter_cons_of_pos rfl, optionHeaders_descriptions]
  rfl

theorem EntrySection.optionHeaders_lines (entry : EntrySection) :
    (entry.lines.filter CommentLine.isOptionHeader).map CommentLine.comment =
      entry.options.map OptionSection.comment := by
  rw [lines, List.filter_cons_of_neg Bool.false_ne_true, List.filter_append,
    optionHeaders_descriptions, List.nil_append]
  simp only [List.filter_flatMap, List.map_flatMap, OptionSection.optionHeaders_lines]
  exact List.map_eq_flatMap.symm

theorem optionHeaders_sections (sections : List EntrySection) :
    ((sections.flatMap EntrySection.lines).filter CommentLine.isOptionHeader).map
        CommentLine.comment =
      sections.flatMap fun entry => entry.options.map OptionSection.comment := by
  simp only [List.filter_flatMap, List.map_flatMap, EntrySection.optionHeaders_lines]

theorem paramHeaders_sections (sections : List EntrySection) :
    ((sections.flatMap EntrySection.lines).filter CommentLine.isParamHeader).map
        CommentLine.comment =
      sections.map EntrySection.comment := by
  simp only [List.filter_flatMap, List.map_flatMap, EntrySection.paramHeaders_lines]
  exact List.map_eq_flatMap.symm

theorem texts_sections (sections : List EntrySection) :
    ((sections.flatMap EntrySection.lines).filter CommentLine.isDescription).map
        CommentLine.text =
      sections.flatMap EntrySection.allTexts := by
  simp only [List.filter_flatMap, List.map_flatMap, EntrySection.texts_lines]

/-- Without the separators, the lines of any other kind are still all there. -/
theorem filter_sectionParts
    {lines : List CommentLine}
    {wanted : CommentLine → Bool}
    (noSeparator : ∀ comment, wanted ⟨comment, .separator⟩ = false) :
    (lines.filter CommentLine.isSectionPart).filter wanted = lines.filter wanted := by
  rw [List.filter_filter]
  apply List.filter_congr
  rintro ⟨comment, content⟩ _
  cases content with
  | separator => rw [noSeparator, Bool.false_and]
  | _ => exact Bool.and_true _

/-! The lines tell where each section ends, so they have one division into sections. -/

/-- Lines that do not go on with a description line. -/
def EndsDescription (lines : List CommentLine) : Prop :=
  ∀ line ∈ lines.head?, line.isDescription = false

/-- Lines that begin with a parameter header, if they begin at all. -/
def EndsEntry (lines : List CommentLine) : Prop :=
  ∀ line ∈ lines.head?, line.isParamHeader = true

theorem descriptions_inj
    {first second : List Token}
    {firstRest secondRest : List CommentLine}
    (firstEnds : EndsDescription firstRest)
    (secondEnds : EndsDescription secondRest)
    (same : descriptions first ++ firstRest = descriptions second ++ secondRest) :
    first = second ∧ firstRest = secondRest := by
  induction first generalizing second with
  | nil =>
      cases second with
      | nil => exact ⟨rfl, same⟩
      | cons comment rest =>
          obtain rfl : firstRest = _ := same
          cases firstEnds _ rfl
  | cons comment rest inductionHypothesis =>
      cases second with
      | nil =>
          obtain rfl : _ = secondRest := same
          cases secondEnds _ rfl
      | cons other others =>
          obtain ⟨sameLine, sameRest⟩ := List.cons.inj same
          obtain ⟨rfl, rfl⟩ := inductionHypothesis sameRest
          cases sameLine
          exact ⟨rfl, rfl⟩

theorem EndsEntry.endsDescription
    {lines : List CommentLine}
    (ends : EndsEntry lines)
    (options : List OptionSection) :
    EndsDescription (options.flatMap OptionSection.lines ++ lines) := by
  intro line atHead
  cases options with
  | nil =>
      have isHeader := ends line atHead
      rcases line with ⟨comment, content⟩
      cases content with
      | header name => rfl
      | _ => cases isHeader
  | cons option rest =>
      obtain rfl := Option.some.inj atHead
      rfl

theorem options_inj
    {first second : List OptionSection}
    {firstRest secondRest : List CommentLine}
    (firstEnds : EndsEntry firstRest)
    (secondEnds : EndsEntry secondRest)
    (same :
      first.flatMap OptionSection.lines ++ firstRest =
        second.flatMap OptionSection.lines ++ secondRest) :
    first = second ∧ firstRest = secondRest := by
  induction first generalizing second with
  | nil =>
      cases second with
      | nil => exact ⟨rfl, same⟩
      | cons option rest =>
          obtain rfl : firstRest = _ := same
          cases firstEnds _ rfl
  | cons option rest inductionHypothesis =>
      cases second with
      | nil =>
          obtain rfl : _ = secondRest := same
          cases secondEnds _ rfl
      | cons other others =>
          simp only [List.flatMap_cons, List.append_assoc] at same
          obtain ⟨sameHeader, sameLines⟩ := List.cons.inj same
          obtain ⟨sameDescribed, sameRest⟩ :=
            descriptions_inj (firstEnds.endsDescription rest)
              (secondEnds.endsDescription others) sameLines
          obtain ⟨rfl, rfl⟩ := inductionHypothesis sameRest
          rcases option with ⟨comment, hash, valueType, name, described⟩
          rcases other with ⟨_, _, _, _, _⟩
          cases sameHeader
          cases sameDescribed
          exact ⟨rfl, rfl⟩

theorem endsEntry_sections (sections : List EntrySection) :
    EndsEntry (sections.flatMap EntrySection.lines) := by
  intro line atHead
  cases sections with
  | nil => cases atHead
  | cons entry rest =>
      obtain rfl := Option.some.inj atHead
      rfl

/-- Lines are divided into sections in one way at most. -/
theorem sections_inj
    {first second : List EntrySection}
    (same :
      first.flatMap EntrySection.lines = second.flatMap EntrySection.lines) :
    first = second := by
  induction first generalizing second with
  | nil =>
      cases second with
      | nil => rfl
      | cons entry rest => cases same
  | cons entry rest inductionHypothesis =>
      cases second with
      | nil => cases same
      | cons other others =>
          simp only [List.flatMap_cons, EntrySection.lines, List.cons_append,
            List.append_assoc] at same
          obtain ⟨sameHeader, sameLines⟩ := List.cons.inj same
          obtain ⟨sameDescribed, sameBehind⟩ :=
            descriptions_inj ((endsEntry_sections rest).endsDescription entry.options)
              ((endsEntry_sections others).endsDescription other.options) sameLines
          obtain ⟨sameOptions, sameRest⟩ :=
            options_inj (endsEntry_sections rest) (endsEntry_sections others) sameBehind
          obtain rfl := inductionHypothesis sameRest
          rcases entry with ⟨comment, name, described, options⟩
          rcases other with ⟨_, _, _, _⟩
          cases sameHeader
          cases sameDescribed
          cases sameOptions
          rfl

end DocBlock

end DocAudit
