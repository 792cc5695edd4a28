import DocAudit.Proofs.DocBlock.Standing
import DocAudit.Proofs.Header.RoundTrip
import DocAudit.Proofs.Text.Trim

namespace DocAudit.DocBlock

/-!
# How lines are written

A header line has a space in front of its marker and ends with a name that is not
blank at its end. A description line is indented and mentions no marker, and a
blank line may hold any blank characters. Whatever stands in such lines besides,
they are read as what they announce.
-/

/-- A name as it can stand at the end of a header line. -/
structure IsName (name : String) : Prop where
  isWord : Header.IsWord name.toList
  solidEnd : name.toList.getLast?.any Text.isBlank = false

theorem isName_iff (name : String) :
    IsName name ↔
      Header.IsWord name.toList ∧ name.toList.getLast?.any Text.isBlank = false :=
  ⟨fun isName => ⟨isName.isWord, isName.solidEnd⟩, fun parts => ⟨parts.1, parts.2⟩⟩

instance (name : String) : Decidable (IsName name) :=
  decidable_of_iff' _ (isName_iff name)

/-- A line that holds nothing but blank characters. -/
def IsBlankLine (text : String) : Prop :=
  text.toList.all Text.isBlank = true

instance (text : String) : Decidable (IsBlankLine text) :=
  inferInstanceAs (Decidable (text.toList.all Text.isBlank = true))

/-- At least `indent` spaces in front of text that is not blank and mentions no marker. -/
def IsDescriptionLine
    (indent : Nat)
    (text : String) : Prop :=
  ∃ count body,
    indent ≤ count ∧ text.toList = List.replicate count ' ' ++ body ∧
      body.all Text.isBlank = false ∧
        Text.occurs Header.paramMarker body = false ∧
          Text.occurs Header.optionMarker body = false

/-- Whether a line is a description line shows without splitting it. -/
theorem isDescriptionLine_iff
    (indent : Nat)
    (text : String) :
    IsDescriptionLine indent text ↔
      indent ≤ (text.toList.takeWhile (· == ' ')).length ∧
        text.toList.all Text.isBlank = false ∧
          Text.occurs Header.paramMarker text.toList = false ∧
            Text.occurs Header.optionMarker text.toList = false := by
  constructor
  · rintro ⟨count, body, deep, shape, solid, noParam, noOption⟩
    rw [shape]
    refine ⟨?_, ?_, ?_, ?_⟩
    · rw [List.takeWhile_append_of_pos (by simp), List.length_append,
        List.length_replicate]
      omega
    · rw [List.all_append, solid, Bool.and_false]
    · exact (Text.occurs_replicate_append (by decide) count body).trans noParam
    · exact (Text.occurs_replicate_append (by decide) count body).trans noOption
  · rintro ⟨deep, solid, noParam, noOption⟩
    have spaces : ∀ char ∈ text.toList.takeWhile (· == ' '), char = ' ' := by
      intro char inFront
      simpa using List.all_eq_true.mp List.all_takeWhile char inFront
    have shape :
        text.toList =
          List.replicate (text.toList.takeWhile (· == ' ')).length ' ' ++
            text.toList.dropWhile (· == ' ') := by
      rw [← List.eq_replicate_of_mem spaces, List.takeWhile_append_dropWhile]
    have spacesBlank : (text.toList.takeWhile (· == ' ')).all Text.isBlank = true := by
      rw [List.all_eq_true]
      intro char inFront
      rw [spaces char inFront, Text.isBlank_space]
    refine ⟨_, _, deep, shape, ?_, ?_, ?_⟩
    · rwa [← List.takeWhile_append_dropWhile (p := (· == ' ')) (l := text.toList),
        List.all_append, spacesBlank, Bool.true_and] at solid
    · rw [shape] at noParam
      exact (Text.occurs_replicate_append (by decide) _ _).symm.trans noParam
    · rw [shape] at noOption
      exact (Text.occurs_replicate_append (by decide) _ _).symm.trans noOption

instance (indent : Nat) (text : String) : Decidable (IsDescriptionLine indent text) :=
  decidable_of_iff' _ (isDescriptionLine_iff indent text)

/-- The line that writes the header of a parameter. -/
def paramLine (name : String) : String :=
  " @param " ++ name

/-- The line that writes the header of an option. -/
def optionLine (hash valueType name : String) : String :=
  " @option " ++ hash ++ " [" ++ valueType ++ "] :" ++ name

/-- How a line is written, by what it announces. -/
def Written
    (indent : Nat)
    (text : String) :
    CommentLine.Content → Prop
  | .header name => IsName name ∧ text = paramLine name
  | .optionHeader hash valueType name =>
      Header.IsWord hash.toList ∧
        (valueType ≠ "" ∧ '\n' ∉ valueType.toList) ∧
          IsName name ∧
            text = optionLine hash valueType name ∧
              Text.occurs Header.paramMarker text.toList = false
  | .separator => IsBlankLine text
  | .description => IsDescriptionLine indent text

instance (indent : Nat) (text : String) : DecidablePred (Written indent text)
  | .header name =>
      inferInstanceAs (Decidable (IsName name ∧ text = paramLine name))
  | .optionHeader hash valueType name =>
      inferInstanceAs
        (Decidable
          (Header.IsWord hash.toList ∧
            (valueType ≠ "" ∧ '\n' ∉ valueType.toList) ∧
              IsName name ∧
                text = optionLine hash valueType name ∧
                  Text.occurs Header.paramMarker text.toList = false))
  | .separator => inferInstanceAs (Decidable (IsBlankLine text))
  | .description => inferInstanceAs (Decidable (IsDescriptionLine indent text))

theorem IsName.solidEnd_append
    {name : String}
    (isName : IsName name)
    (front : List Char) :
    (front ++ name.toList).getLast?.any Text.isBlank = false := by
  rw [List.getLast?_append_of_ne_nil _ isName.isWord.1]
  exact isName.solidEnd

/-- A header behind one space is read back, unless it ends with a blank character. -/
theorem ofComment?_of_written
    {comment : Token}
    {header : Header}
    (wellFormed : header.WellFormed)
    (solidEnd : header.written.getLast?.any Text.isBlank = false)
    (shape : comment.text.toList = ' ' :: header.written) :
    Header.ofComment? comment = some header := by
  have startsSolid : ∃ rest, header.written = '@' :: rest := by
    cases header with
    | param name => exact ⟨_, rfl⟩
    | option hash valueType name => exact ⟨_, rfl⟩
  obtain ⟨rest, startShape⟩ := startsSolid
  have isCore : comment.core = header.written := by
    rw [startShape] at solidEnd
    unfold Token.core
    rw [shape, Text.trim_space_cons, startShape,
      Text.trim_eq_self (by decide) solidEnd]
  unfold Header.ofComment?
  rw [isCore]
  exact Header.ofText?_eq_some_iff.mpr ⟨wellFormed, rfl⟩

theorem reads_paramLine
    {config : Config}
    {comment : Token}
    {name : String}
    (isName : IsName name)
    (shape : comment.text = paramLine name) :
    Reader.Reads config comment (.header name) := by
  have textShape :
      comment.text.toList = ' ' :: (Header.param name).written := by
    rw [shape, paramLine, String.toList_append]
    rfl
  have mentions : comment.mentionsParam = true := by
    apply Text.occurs_iff.mpr
    rw [textShape]
    exact ⟨[' '], ' ' :: name.toList, rfl⟩
  have isHeader : Header.ofComment? comment = some (.param name) := by
    refine ofComment?_of_written isName.isWord ?_ textShape
    exact isName.solidEnd_append (Header.paramMarker ++ [' '])
  intro started _
  simp [CommentLine.read, mentions, CommentLine.ofParamHeader, isHeader, Except.map]

theorem reads_optionLine
    {config : Config}
    {comment : Token}
    {hash valueType name : String}
    (isHash : Header.IsWord hash.toList)
    (isType : valueType ≠ "" ∧ '\n' ∉ valueType.toList)
    (isName : IsName name)
    (shape : comment.text = optionLine hash valueType name)
    (noParam : comment.mentionsParam = false) :
    Reader.Reads config comment (.optionHeader hash valueType name) := by
  have textShape :
      comment.text.toList = ' ' :: (Header.option hash valueType name).written := by
    rw [shape]
    simp only [optionLine, Header.written, String.toList_append, List.append_assoc,
      List.cons_append]
    rfl
  have mentions : comment.mentionsOption = true := by
    apply Text.occurs_iff.mpr
    rw [textShape]
    exact ⟨[' '], _, rfl⟩
  have isHeader :
      Header.ofComment? comment = some (.option hash valueType name) := by
    refine ofComment?_of_written ⟨isHash, ?_, isName.isWord⟩ ?_ textShape
    · simpa using isType
    · have endShape :
          (Header.option hash valueType name).written =
            (Header.optionMarker ++ ' ' :: hash.toList ++
              ' ' :: '[' :: valueType.toList ++ [']', ' ', ':']) ++ name.toList := by
        simp [Header.written]
      rw [endShape]
      exact isName.solidEnd_append _
  rintro started (rfl | ⟨_, isParam⟩)
  · simp [CommentLine.read, noParam, mentions, CommentLine.ofOptionHeader, isHeader,
      Except.map]
  · cases isParam

/-- A marker does not occur in a blank line, because it holds a visible character. -/
theorem occurs_blankLine
    {text : String}
    {marker : List Char}
    (isBlank : IsBlankLine text)
    (visible : '@' ∈ marker) :
    Text.occurs marker text.toList = false := by
  rw [← Bool.not_eq_true, Text.occurs_iff]
  intro occurs
  have blankMark := List.all_eq_true.mp isBlank '@' (occurs.subset visible)
  exact absurd blankMark (by decide)

theorem reads_blankLine
    {config : Config}
    {comment : Token}
    (isBlank : IsBlankLine comment.text) :
    Reader.Reads config comment .separator := by
  have noParam : comment.mentionsParam = false :=
    occurs_blankLine isBlank (by decide)
  have noOption : comment.mentionsOption = false :=
    occurs_blankLine isBlank (by decide)
  have isEmpty : comment.core = [] :=
    (Text.trim_eq_nil_iff _).mpr isBlank
  rintro started (rfl | ⟨_, isParam⟩)
  · simp [CommentLine.read, noParam, noOption, isEmpty]
  · cases isParam

theorem reads_descriptionLine
    {config : Config}
    {comment : Token}
    (describes : IsDescriptionLine config.descriptionIndent comment.text) :
    Reader.Reads config comment .description := by
  obtain ⟨_, solid, silent, alsoSilent⟩ := (isDescriptionLine_iff _ _).mp describes
  have noParam : comment.mentionsParam = false := silent
  have noOption : comment.mentionsOption = false := alsoSilent
  have notEmpty : comment.core ≠ [] := by
    intro isEmpty
    rw [(Text.trim_eq_nil_iff _).mp isEmpty] at solid
    cases solid
  have indented :
      Text.indentsWord config.descriptionIndent comment.text.toList = true := by
    obtain ⟨count, body, deep, shape, bodySolid, _⟩ := describes
    rw [shape]
    exact Text.indentsWord_replicate_append deep bodySolid
  rintro started (rfl | ⟨_, isParam⟩)
  · simp [CommentLine.read, noParam, noOption, notEmpty, CommentLine.ofText, indented]
  · cases isParam

/-- A line is read as what it announces. -/
theorem reads_of_written
    {config : Config}
    {comment : Token}
    {content : CommentLine.Content}
    (written : Written config.descriptionIndent comment.text content) :
    Reader.Reads config comment content := by
  cases content with
  | header name =>
      obtain ⟨isName, shape⟩ := written
      exact reads_paramLine isName shape
  | optionHeader hash valueType name =>
      obtain ⟨isHash, isType, isName, shape, noParam⟩ := written
      exact reads_optionLine isHash isType isName shape noParam
  | separator => exact reads_blankLine written
  | description => exact reads_descriptionLine written

end DocAudit.DocBlock
