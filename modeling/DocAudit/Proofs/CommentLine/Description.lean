import DocAudit.CommentLine
import DocAudit.Proofs.Text.Indent

namespace DocAudit.CommentLine

/-!
# What makes a description line

A plain line behind the first header describes something when it is indented. That the
spaces may stand inside the line is more than the description indent is said to ask
for: a line that begins with a word, and has a wide gap behind it, is a description
line as well. The main statement is `read_plain_iff_indented`.
-/

/-- A comment that mentions no marker and is not blank. -/
structure Plain (comment : Token) : Prop where
  solid : comment.core ≠ []
  noParam : comment.mentionsParam = false
  noOption : comment.mentionsOption = false

variable
  {config : Config}
  {comment : Token}

theorem Plain.read_eq
    (plain : Plain comment) :
    CommentLine.read config true comment = ofText config comment := by
  simp [CommentLine.read, plain.solid, plain.noParam, plain.noOption]

/-- A text that holds no indented word is skipped, if the indent can be made. -/
theorem ofText_eq_of_not_indentsWord
    (unindented :
      Text.indentsWord config.descriptionIndent comment.text.toList = false) :
    ofText config comment =
      match Fault.ofRun? config.descriptionIndent with
      | none => .ok none
      | some fault => .error fault := by
  simp only [ofText, unindented]
  cases Fault.ofRun? config.descriptionIndent <;> rfl

/--
Behind the first header, a plain comment is a description line exactly when its text
begins indented, or is indented inside. Any other plain comment is skipped, unless no
run of spaces as long as the description indent can be made.
-/
theorem read_plain_iff_indented
    (plain : Plain comment) :
    (CommentLine.read config true comment = .ok (some ⟨comment, .description⟩) ↔
        Text.BeginsIndented config.descriptionIndent comment.text.toList ∨
          Text.IndentedInside config.descriptionIndent comment.text.toList) ∧
      (¬ (Text.BeginsIndented config.descriptionIndent comment.text.toList ∨
            Text.IndentedInside config.descriptionIndent comment.text.toList) →
        CommentLine.read config true comment =
          match Fault.ofRun? config.descriptionIndent with
          | none => .ok none
          | some fault => .error fault) := by
  rw [plain.read_eq, ← Text.indentsWord_iff]
  cases indents : Text.indentsWord config.descriptionIndent comment.text.toList with
  | true => simp [ofText, indents]
  | false =>
      have skipped := ofText_eq_of_not_indentsWord indents
      refine ⟨?_, fun _ => skipped⟩
      rw [skipped]
      cases Fault.ofRun? config.descriptionIndent <;> simp

/-- Two sentences with a wide gap between them. -/
def gappedComment : Token :=
  ⟨.comment, " Starts it.  Then waits.", .first⟩

theorem plain_gappedComment : Plain gappedComment where
  solid := by decide +kernel
  noParam := by decide +kernel
  noOption := by decide +kernel

/-- A single space does not begin an indented text. -/
theorem not_beginsIndented_gappedComment :
    ¬ Text.BeginsIndented Config.standard.descriptionIndent
        gappedComment.text.toList := by
  have shape :
      gappedComment.text.toList = ' ' :: 'S' :: "tarts it.  Then waits.".toList := rfl
  rw [shape, Text.beginsIndented_space_cons_iff,
    Text.beginsIndented_cons_iff (by decide)]
  decide

/-- The gap makes a description line of a text that does not begin indented. -/
theorem description_gappedComment :
    Plain gappedComment ∧
      ¬ Text.BeginsIndented Config.standard.descriptionIndent
          gappedComment.text.toList ∧
        CommentLine.read Config.standard true gappedComment =
          .ok (some ⟨gappedComment, .description⟩) :=
  ⟨plain_gappedComment, not_beginsIndented_gappedComment, rfl⟩

/-- It is the gap that indents: the text is a description line, so it is indented inside. -/
theorem read_plain_iff_indented_gappedComment :
    Plain gappedComment ∧
      Text.IndentedInside Config.standard.descriptionIndent
        gappedComment.text.toList := by
  obtain ⟨described_iff, _⟩ :=
    @read_plain_iff_indented Config.standard _ plain_gappedComment
  refine ⟨plain_gappedComment, ?_⟩
  exact (described_iff.mp rfl).resolve_left not_beginsIndented_gappedComment

end DocAudit.CommentLine
