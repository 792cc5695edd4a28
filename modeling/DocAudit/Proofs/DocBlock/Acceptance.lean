import DocAudit.Proofs.DocBlock.Names
import DocAudit.Proofs.DocBlock.Standing

namespace DocAudit

/-!
# Blocks that are accepted

A block whose lines can be read one by one, and lead the automaton of standings
from its start to some end, is accepted as a whole. Its header lines were read
with the others, so they pass the check of all headers in front of the block, and
the entries of the block are the ones that they announce.
-/

namespace CommentLine

/-- A line that is read as a header, once one was read, has the shape of one. -/
theorem isSome_ofComment?_of_read
    {config : Config}
    {comment : Token}
    {line? : Option CommentLine}
    (read : CommentLine.read config true comment = .ok line?)
    (isHeader : comment.isHeaderLine = true) :
    (Header.ofComment? comment).isSome = true := by
  cases isShaped : Header.ofComment? comment with
  | some header => rfl
  | none =>
      have noParam :
          ofParamHeader comment = .error (.unreadable (.malformedHeader comment)) := by
        simp [ofParamHeader, isShaped]
      have noOption :
          ofOptionHeader comment = .error (.unreadable (.malformedHeader comment)) := by
        simp [ofOptionHeader, isShaped]
      unfold CommentLine.read at read
      rcases Bool.or_eq_true_iff.mp isHeader with mentionsParam | mentionsOption
      · simp [mentionsParam, noParam, Except.map] at read
      · cases mentionsParam : comment.mentionsParam <;>
          simp [mentionsParam, mentionsOption, noParam, noOption, Except.map] at read

end CommentLine

namespace DocBlock

/-- Comments that are read as lines pass the check of all headers. -/
theorem validate_of_reads
    {config : Config}
    {comments : List Token}
    {contents : List CommentLine.Content}
    (reads : List.Forall₂ (Reader.Reads config) comments contents) :
    Header.validate comments = .ok () := by
  have noneMalformed : Header.firstMalformed? comments = none := by
    unfold Header.firstMalformed?
    induction reads with
    | nil => rfl
    | @cons comment content _ _ read _ inductionHypothesis =>
        rw [List.find?_cons_of_neg]
        · exact inductionHypothesis
        · intro malformed
          rw [Bool.and_eq_true] at malformed
          have isSome :=
            CommentLine.isSome_ofComment?_of_read (read true (.inl rfl)) malformed.1
          simp [Option.isSome_iff_ne_none.mp isSome] at malformed
  simp [Header.validate, noneMalformed]

/-- The lines with the marker are the header lines of the names that are announced. -/
theorem headerLines_of_reads
    {config : Config}
    {comments : List Token}
    {contents : List CommentLine.Content}
    (reads : List.Forall₂ (Reader.Reads config) comments contents) :
    (comments.filter Token.mentionsParam).map Token.trimmed =
      (contents.filterMap CommentLine.Content.headerName?).map headerLine := by
  induction reads with
  | nil => rfl
  | @cons comment content rest restContents read _ inductionHypothesis =>
      have headed := CommentLine.headerName_of_read (read true (.inl rfl))
      have split :
          (comment :: rest).filter Token.mentionsParam =
            [comment].filter Token.mentionsParam ++ rest.filter Token.mentionsParam := by
        rw [← List.filter_append]
        rfl
      rw [split, List.map_append, ← headed, inductionHypothesis]
      cases name? : content.headerName? <;> simp [name?]

/--
A block is read when its lines can be read and lead the automaton from its start
to some end; its entries are the announced ones.
-/
theorem exists_docs_of_reads
    {config : Config}
    {comments : List Token}
    {contents : List CommentLine.Content}
    {target : Standing}
    (reads : List.Forall₂ (Reader.Reads config) comments contents)
    (moves : Standing.start.reach? contents = some target) :
    ∃ docs,
      DocBlock.docs config comments = .ok docs ∧
        docs.map ParameterDoc.name =
          contents.filterMap CommentLine.Content.headerName? := by
  obtain ⟨last, runs, lastSound, _⟩ :=
    Reader.run_of_reads Reader.sound_start reads moves
  obtain ⟨final, finishes⟩ := lastSound.exists_finish
  have answers : DocBlock.docs config comments = .ok final.contents.docs := by
    rw [docs_eq_outcome]
    unfold Reader.scan
    rw [validate_of_reads reads]
    simp [runs, finishes, Machine.Scan.andThen, Machine.Scan.finished,
      Machine.Scan.outcome]
  refine ⟨final.contents.docs, answers, ?_⟩
  apply headerLine_injective.list_map
  rw [headerLines_of_docs answers, headerLines_of_reads reads]

end DocBlock

end DocAudit
