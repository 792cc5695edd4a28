import DocAudit.Proofs.DocBlock.DocumentationLines
import DocAudit.Proofs.Header.Markers

namespace DocAudit.DocBlock

/-!
# The answer of a block

What a block answers follows from two things: whether its header lines pass the
check, and where the reader ends on its documentation lines.
-/

section Answers

variable
  {config : Config}
  {comments : List Token}
  {last : Reader}
  {fault : Fault}

/-- A header line of neither shape is reported before any line is read. -/
theorem docs_of_invalid
    {error : ParseError}
    (fails : Header.validate comments = .error error) :
    DocBlock.docs config comments = .error (.unreadable error) := by
  rw [docs_eq_outcome, Reader.scan, fails]
  rfl

/-- A block that passes the check answers what reading it answers. -/
theorem docs_of_valid
    (valid : Header.validate comments = .ok ()) :
    DocBlock.docs config comments =
      ((Machine.Scan.run (Reader.step config) .start comments).andThen
          Reader.finish).outcome
        fun final => final.contents.docs := by
  rw [docs_eq_outcome, Reader.scan, valid]

/-- A block that is read to its end answers what closing the reader answers. -/
theorem docs_of_finished
    (valid : Header.validate comments = .ok ())
    (reads : Machine.Scan.run (Reader.step config) .start comments = .finished last) :
    DocBlock.docs config comments =
      last.finish.map fun final => final.contents.docs := by
  rw [docs_of_valid valid, reads]
  exact Machine.Scan.outcome_finished last

theorem docs_of_stopped
    (valid : Header.validate comments = .ok ())
    (reads : Machine.Scan.run (Reader.step config) .start comments = .stopped last fault) :
    DocBlock.docs config comments = .error fault := by
  rw [docs_of_valid valid, reads]
  rfl

/-- Closing what is open at the end leaves the phase as it is. -/
theorem state_of_finished
    (valid : Header.validate comments = .ok ())
    (reads : Machine.Scan.run (Reader.step config) .start comments = .finished last) :
    (run config comments).state = last.state := by
  change (Reader.scan config .start comments).state.state = last.state
  rw [Reader.scan, valid]
  simp only [reads, Machine.Scan.andThen, Machine.Scan.finished]
  unfold Reader.finish
  cases last.contents.closeOption.closeEntry <;> rfl

theorem validate_left
    {front back : List Token}
    (valid : Header.validate (front ++ back) = .ok ()) :
    Header.validate front = .ok () := by
  rw [Header.validate_eq_ok_iff] at valid ⊢
  intro comment member
  exact valid comment (List.mem_append_left back member)

/-- A block that is accepted passes the check, is read to its end, and is closed there. -/
theorem exists_run_of_docs
    {docs : List ParameterDoc}
    (answers : DocBlock.docs config comments = .ok docs) :
    Header.validate comments = .ok () ∧
      ∃ last final,
        Machine.Scan.run (Reader.step config) .start comments = .finished last ∧
          last.finish = .ok final ∧ final.contents.docs = docs := by
  have valid : Header.validate comments = .ok () := by
    by_contra fails
    obtain ⟨blamed, _, reported⟩ := Header.exists_of_validate_ne_ok fails
    rw [docs_of_invalid reported] at answers
    cases answers
  rw [docs_of_valid valid] at answers
  exact ⟨valid, Machine.Scan.outcome_andThen_eq_ok_iff.mp answers⟩

/-- Comments that are read to their end are documentation lines, which are all taken. -/
theorem exists_run_take
    (reads : Machine.Scan.run (Reader.step config) .start comments = .finished last) :
    ∃ lines,
      documentationLines config comments = .ok lines ∧
        Machine.Scan.run Reader.take .start lines = .finished last := by
  cases read : documentationLines config comments with
  | ok lines =>
      rw [Reader.run_step_start read] at reads
      exact ⟨lines, rfl, reads⟩
  | error fault =>
      obtain ⟨_, _, _, before, _, _, _, runs⟩ :=
        Reader.run_step_start_of_unreadable read
      rw [runs] at reads
      exact absurd reads (Machine.Scan.andThen_error_ne_finished _ _ _)

/-- The documentation lines of a block that is accepted are all taken. -/
theorem exists_run_take_of_docs
    {docs : List ParameterDoc}
    (answers : DocBlock.docs config comments = .ok docs) :
    Header.validate comments = .ok () ∧
      ∃ lines last final,
        documentationLines config comments = .ok lines ∧
          Machine.Scan.run Reader.take .start lines = .finished last ∧
            last.finish = .ok final ∧ final.contents.docs = docs := by
  obtain ⟨valid, last, final, reads, finishes, rfl⟩ := exists_run_of_docs answers
  obtain ⟨lines, read, takes⟩ := exists_run_take reads
  exact ⟨valid, lines, last, final, read, takes, finishes, rfl⟩

end Answers

end DocAudit.DocBlock
