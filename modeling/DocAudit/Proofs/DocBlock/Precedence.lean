import DocAudit.Proofs.DocBlock.Answer

namespace DocAudit

/-!
# Malformed headers and the layout

Headers are checked before the layout, so a header line that has neither shape is
reported whatever the lines in front of it are. This does not extend to all lines
that are refused as headers when they are read: a line that has the shape of an
option header and mentions the parameter marker passes the check, and an error of
the layout in front of it is reported in its place.
-/

namespace CommentLine

/-- A line is refused as a malformed header for its shape, or for its marker. -/
theorem shape_of_malformed
    {config : Config}
    {started : Bool}
    {comment : Token}
    (malformed :
      CommentLine.read config started comment =
        .error (.unreadable (.malformedHeader comment))) :
    comment.isHeaderLine = true ∧
      (Header.ofComment? comment = none ∨ comment.mentionsParam = true) := by
  rcases read_eq_error malformed with ⟨_, misplaced | shapeless⟩ | tooLong
  · exact ⟨by simp [Token.isHeaderLine, misplaced.1], .inr misplaced.1⟩
  · exact ⟨by simp [Token.isHeaderLine, shapeless.1], .inl shapeless.2⟩
  · exact (Fault.ofRun?_ne_unreadable tooLong).elim

end CommentLine

namespace DocBlock

/-- The documentation lines of a block take in every comment that mentions the marker. -/
theorem exists_read_of_documentationLines
    {config : Config}
    {comments : List Token}
    {lines : List CommentLine}
    {comment : Token}
    (read : documentationLines config comments = .ok lines)
    (member : comment ∈ comments)
    (mentions : comment.mentionsParam = true) :
    ∃ line?, CommentLine.read config true comment = .ok line? := by
  obtain ⟨skipped, headed, rfl, silent, isHeaded⟩ := exists_headed comments
  rw [documentationLines_append silent isHeaded] at read
  rcases List.mem_append.mp member with inSkipped | inHeaded
  · rw [silent comment inSkipped] at mentions
    cases mentions
  · exact exists_read_of_linesFrom read inHeaded

/--
A block with a line that is refused as a malformed header is not accepted. If the
line has neither shape, a malformed header is reported, whatever else is wrong.
-/
theorem malformed_precedes_layout
    {config : Config}
    {comments : List Token}
    {started : Bool}
    {comment : Token}
    (member : comment ∈ comments)
    (malformed :
      CommentLine.read config started comment =
        .error (.unreadable (.malformedHeader comment))) :
    (¬ ∃ docs, DocBlock.docs config comments = .ok docs) ∧
      (Header.ofComment? comment = none →
        ∃ blamed ∈ comments,
          DocBlock.docs config comments =
            .error (.unreadable (.malformedHeader blamed))) := by
  obtain ⟨isHeaderLine, refused⟩ := CommentLine.shape_of_malformed malformed
  have reported :
      Header.ofComment? comment = none →
        ∃ blamed ∈ comments,
          DocBlock.docs config comments =
            .error (.unreadable (.malformedHeader blamed)) := by
    intro shapeless
    have fails : Header.validate comments ≠ .ok () := by
      intro valid
      have shaped := Header.validate_eq_ok_iff.mp valid comment member isHeaderLine
      rw [shapeless] at shaped
      cases shaped
    obtain ⟨blamed, isBlamed, checked⟩ := Header.exists_of_validate_ne_ok fails
    exact ⟨blamed, isBlamed, docs_of_invalid checked⟩
  refine ⟨?_, reported⟩
  rintro ⟨docs, answers⟩
  rcases refused with shapeless | mentions
  · obtain ⟨blamed, _, refusal⟩ := reported shapeless
    rw [refusal] at answers
    cases answers
  · obtain ⟨_, lines, _, _, read, _⟩ := exists_run_take_of_docs answers
    obtain ⟨line?, readHere⟩ :=
      exists_read_of_documentationLines read member mentions
    rw [CommentLine.read_of_mentionsParam config started mentions, readHere] at malformed
    cases malformed

/-- An option header that mentions the parameter marker in its type. -/
def doublyMarked : Token :=
  ⟨.comment, " @option h [@param] :x", ⟨3, 1⟩⟩

/-- A header without a description, and an option header with both markers. -/
def doublyMarkedBlock : List Token :=
  [⟨.comment, " @param a", ⟨1, 1⟩⟩, ⟨.comment, " @param b", ⟨2, 1⟩⟩, doublyMarked]

/-- The line with both markers is refused as a header, but the layout is reported. -/
theorem layout_precedes_doublyMarked :
    doublyMarked ∈ doublyMarkedBlock ∧
      CommentLine.read Config.standard true doublyMarked =
          .error (.unreadable (.malformedHeader doublyMarked)) ∧
        DocBlock.docs Config.standard doublyMarkedBlock =
          .error
            (.unreadable
              (.unexpectedComment ⟨.comment, " @param b", ⟨2, 1⟩⟩
                "awaiting_description")) := by
  decide +kernel

/-- A header with a text behind its name, which has neither shape. -/
def wordyHeader : Token :=
  ⟨.comment, " @param c with text", ⟨3, 1⟩⟩

/-- A header without a description, and a header of neither shape. -/
def wordyBlock : List Token :=
  [⟨.comment, " @param a", ⟨1, 1⟩⟩, ⟨.comment, " @param b", ⟨2, 1⟩⟩, wordyHeader]

/-- The header of neither shape is reported, and the missing description is not. -/
theorem malformed_precedes_layout_wordyBlock :
    CommentLine.read Config.standard true wordyHeader =
        .error (.unreadable (.malformedHeader wordyHeader)) ∧
      (¬ ∃ docs, DocBlock.docs Config.standard wordyBlock = .ok docs) ∧
        ∃ blamed ∈ wordyBlock,
          DocBlock.docs Config.standard wordyBlock =
            .error (.unreadable (.malformedHeader blamed)) := by
  have member : wordyHeader ∈ wordyBlock := by decide
  have malformed :
      CommentLine.read Config.standard true wordyHeader =
        .error (.unreadable (.malformedHeader wordyHeader)) := by
    decide +kernel
  obtain ⟨refused, reported⟩ := malformed_precedes_layout member malformed
  exact ⟨malformed, refused, reported (by decide +kernel)⟩

end DocBlock

end DocAudit
