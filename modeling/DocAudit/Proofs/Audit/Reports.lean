import DocAudit.Proofs.Audit.Clean
import DocAudit.Proofs.Declaration.ClosingBlock
import DocAudit.Proofs.DocBlock.Accounting
import DocAudit.Proofs.DocBlock.Safety
import DocAudit.Proofs.Signature.Safety

namespace DocAudit

/-!
# What is reported about a declaration

A declaration is reported on its own, whatever stands in front of it: it has one
finding at most, and the finding has a place. The finding that a declaration cannot
be read shows the error, its message and its place, and a warning with the same
message goes with it. The parameter list is looked at first, so its error wins over a
place behind the end of the file, and both win over the comments. The main result is
`Declaration.exists_reports`.
-/

namespace Finding

/-- Whether a finding is of the kind that a declaration cannot be read. -/
def isParseError (finding : Finding) : Bool :=
  decide (finding.cause.kindName = "parse_error")

/-- A finding shows an error: it is of that kind, and has the message and the place. -/
structure Shows
    (finding : Finding)
    (error : ParseError) : Prop where
  cause : finding.cause = .unreadable error
  kind : finding.cause.kindName = "parse_error"
  message : finding.message = error.message
  position : finding.position? = some error.position

/-- The warning that goes with a finding, if it is that a declaration cannot be read. -/
def warning?
    (start : Int)
    (finding : Finding) :
    Option Warning :=
  match finding.cause with
  | .unreadable error => some ⟨start, error⟩
  | _ => none

/-- The kind of a finding tells whether a parse error caused it. -/
theorem isParseError_iff {finding : Finding} :
    finding.isParseError = true ↔ ∃ error, finding.cause = .unreadable error := by
  rcases finding with ⟨cause, position?⟩
  cases cause <;> simp [isParseError, Cause.kindName]

/-- The finding that a declaration cannot be read shows the error, at its place. -/
theorem shows_unreadable (error : ParseError) :
    Shows ⟨.unreadable error, some error.position⟩ error where
  cause := rfl
  kind := rfl
  message := rfl
  position := rfl

theorem message_of_unreadable
    {finding : Finding}
    {error : ParseError}
    (isUnreadable : finding.cause = .unreadable error) :
    finding.message = error.message := by
  unfold message
  rw [isUnreadable]
  rfl

theorem warning?_eq_some_iff
    {start : Int}
    {finding : Finding}
    {warning : Warning} :
    finding.warning? start = some warning ↔
      ∃ error, finding.cause = .unreadable error ∧ warning = ⟨start, error⟩ := by
  rcases finding with ⟨cause, position?⟩
  cases cause <;> simp [warning?, eq_comm]

/-- The warnings tell where the declaration is and repeat the messages of the errors. -/
theorem message_warnings
    (start : Int)
    (findings : List Finding) :
    (findings.filterMap (warning? start)).map Warning.message =
      (findings.filter isParseError).map fun finding =>
        s!"Skipping declaration at token {start}: " ++ finding.message := by
  induction findings with
  | nil => rfl
  | cons finding rest inductionHypothesis =>
      cases warned : finding.warning? start with
      | none =>
          have isOther : ¬ finding.isParseError = true := by
            rw [isParseError_iff]
            rintro ⟨error, isUnreadable⟩
            simp [warning?, isUnreadable] at warned
          rw [List.filterMap_cons_none warned, List.filter_cons_of_neg isOther]
          exact inductionHypothesis
      | some warning =>
          obtain ⟨error, isUnreadable, rfl⟩ := warning?_eq_some_iff.mp warned
          have isError := isParseError_iff.mpr ⟨error, isUnreadable⟩
          have repeats :
              Warning.message ⟨start, error⟩ =
                s!"Skipping declaration at token {start}: " ++ finding.message := by
            rw [message_of_unreadable isUnreadable]
            rfl
          rw [List.filterMap_cons_some warned, List.filter_cons_of_pos isError,
            List.map_cons, List.map_cons, repeats, inductionHypothesis]

end Finding

namespace Declaration

/-- Why a declaration cannot be read. -/
inductive Unreadable
    (config : Config)
    (tokens : List Token)
    (declaration : Declaration) :
    ParseError → Prop where
  | signature
      {error : ParseError} :
      Signature.parameters config declaration.parameterTokens =
        .error (.unreadable error) →
      Unreadable config tokens declaration error
  | comments
      {parameters : List Parameter}
      {comments : List Token}
      {error : ParseError} :
      Signature.parameters config declaration.parameterTokens = .ok parameters →
      commentsAbove tokens declaration.start = .ok comments →
      DocBlock.docs config comments = .error (.unreadable error) →
      Unreadable config tokens declaration error

/-- A declaration has a parameter list that can be read and no place in its file. -/
structure OutOfReach
    (config : Config)
    (tokens : List Token)
    (declaration : Declaration) : Prop where
  signatureRead :
    ∃ parameters,
      Signature.parameters config declaration.parameterTokens = .ok parameters
  behind : tokens.length < declaration.start

/-- The findings that there can be about a declaration, each with its place. -/
inductive Grounded
    (config : Config)
    (tokens : List Token)
    (declaration : Declaration) :
    Finding → Prop where
  | unreadable
      {error : ParseError} :
      Unreadable config tokens declaration error →
      Grounded config tokens declaration ⟨.unreadable error, some error.position⟩
  | missing
      (names : List String) :
      Grounded config tokens declaration ⟨.missing names, some ⟨1, 1⟩⟩
  | unused
      (names : List String) :
      Grounded config tokens declaration ⟨.unused names, some ⟨1, 1⟩⟩
  /-- The name stands in a header of the block above the declaration. -/
  | misordered
      {comment : Token}
      {name : String} :
      comment ∈ closingBlock (tokens.take declaration.start.toNat) →
      comment.isComment = true →
      Header.ofComment? comment = some (.param name) →
      Grounded config tokens declaration ⟨.misordered name, some ⟨comment.line, 1⟩⟩

/-- What a report says about one declaration. -/
structure Reports
    (config : Config)
    (tokens : List Token)
    (declaration : Declaration)
    (report : Report) : Prop where
  /-- The report depends on the file and on the declaration alone. -/
  answers : declaration.report config tokens = .ok report
  atMostOne : report.findings.length ≤ 1
  placed : ∀ finding ∈ report.findings, ∃ position, finding.position? = some position
  grounded : ∀ finding ∈ report.findings, Grounded config tokens declaration finding
  /-- A finding of that kind shows an error that reading the declaration ends with. -/
  unreadable :
    ∀ finding ∈ report.findings,
      finding.isParseError = true →
        ∃ error, Unreadable config tokens declaration error ∧ finding.Shows error
  /-- An error that reading the declaration ends with is shown. -/
  shown :
    ∀ error,
      Unreadable config tokens declaration error →
        ∃ finding ∈ report.findings, finding.Shows error
  /-- One warning goes with each error, and none with another finding. -/
  warned :
    report.warnings =
      report.findings.filterMap (Finding.warning? declaration.start)
  /-- A warning tells where the declaration is and repeats the message of the finding. -/
  logged :
    report.warnings.map Warning.message =
      (report.findings.filter Finding.isParseError).map fun finding =>
        s!"Skipping declaration at token {declaration.start}: " ++ finding.message

section Readings

variable
  {config : Config}
  {tokens : List Token}
  {declaration : Declaration}
  {parameters : List Parameter}
  {comments : List Token}
  {error : ParseError}

theorem findings_of_signature
    (signatureRead :
      Signature.parameters config declaration.parameterTokens = .ok parameters) :
    declaration.findings config tokens =
      (commentsAbove tokens declaration.start).bind fun comments =>
        (DocBlock.docs config comments).map (Agreement.findings parameters) := by
  unfold findings
  rw [signatureRead]
  cases commentsAbove tokens declaration.start with
  | error fault => rfl
  | ok comments =>
      cases answer : DocBlock.docs config comments <;>
        simp [bind, Except.bind, pure, Except.pure, Except.map, answer]

theorem Unreadable.findings
    (unreadable : Unreadable config tokens declaration error) :
    declaration.findings config tokens = .error (.unreadable error) := by
  cases unreadable with
  | signature fails =>
      unfold Declaration.findings
      rw [fails]
      rfl
  | comments signatureRead found fails =>
      rw [findings_of_signature signatureRead, found, Except.bind, fails]
      rfl

theorem OutOfReach.findings
    (outOfReach : OutOfReach config tokens declaration) :
    declaration.findings config tokens =
      .error (.startOutOfRange declaration.start) := by
  obtain ⟨⟨parameters, signatureRead⟩, behind⟩ := outOfReach
  rw [findings_of_signature signatureRead,
    commentsAbove_eq_error_iff.mpr ⟨behind, rfl⟩]
  rfl

/-- A declaration cannot be read, or has no place in its file, or is compared. -/
theorem findings_cases
    (fits : Fault.ofRun? config.descriptionIndent = none)
    (tokens : List Token)
    (declaration : Declaration) :
    (∃ error, Unreadable config tokens declaration error) ∨
      OutOfReach config tokens declaration ∨
        ∃ parameters comments docs,
          commentsAbove tokens declaration.start = .ok comments ∧
            DocBlock.docs config comments = .ok docs ∧
              declaration.findings config tokens =
                .ok (Agreement.findings parameters docs) := by
  cases signature : Signature.parameters config declaration.parameterTokens with
  | error fault =>
      obtain ⟨_, _, _, error, rfl, _⟩ := Signature.exists_blames_of_parameters signature
      exact .inl ⟨error, .signature signature⟩
  | ok parameters =>
      cases found : commentsAbove tokens declaration.start with
      | error fault =>
          obtain ⟨behind, _⟩ := commentsAbove_eq_error_iff.mp found
          exact .inr (.inl ⟨⟨parameters, signature⟩, behind⟩)
      | ok comments =>
          cases answer : DocBlock.docs config comments with
          | error fault =>
              obtain ⟨_, _, _, error, rfl, _⟩ :=
                DocBlock.exists_blames_of_docs fits answer
              exact .inl ⟨error, .comments signature found answer⟩
          | ok docs =>
              refine .inr (.inr ⟨parameters, comments, docs, rfl, answer, ?_⟩)
              rw [findings_of_signature signature, found, Except.bind, answer]
              rfl

/-- Only an error that reading ends with can be shown. -/
theorem Grounded.exists_shows
    {finding : Finding}
    (grounded : Grounded config tokens declaration finding)
    (isError : finding.isParseError = true) :
    ∃ error, Unreadable config tokens declaration error ∧ finding.Shows error := by
  obtain ⟨_, isUnreadable⟩ := Finding.isParseError_iff.mp isError
  cases grounded with
  | unreadable unreadable => exact ⟨_, unreadable, Finding.shows_unreadable _⟩
  | missing names => cases isUnreadable
  | unused names => cases isUnreadable
  | misordered inBlock isComment isHeader => cases isUnreadable

theorem Grounded.exists_position
    {finding : Finding}
    (grounded : Grounded config tokens declaration finding) :
    ∃ position, finding.position? = some position := by
  cases grounded <;> exact ⟨_, rfl⟩

/-- A report of one finding at most, which has a reason and leaves no error out. -/
theorem reports_of_grounded
    (findings : List Finding)
    (answers :
      declaration.report config tokens =
        .ok
          { findings := findings
            warnings := findings.filterMap (Finding.warning? declaration.start) })
    (atMostOne : findings.length ≤ 1)
    (grounded : ∀ finding ∈ findings, Grounded config tokens declaration finding)
    (complete :
      ∀ error,
        Unreadable config tokens declaration error →
          ∃ finding ∈ findings, finding.Shows error) :
    ∃ report, Reports config tokens declaration report :=
  ⟨_,
    { answers := answers
      atMostOne := atMostOne
      placed := fun finding member => (grounded finding member).exists_position
      grounded := grounded
      unreadable := fun finding member => (grounded finding member).exists_shows
      shown := complete
      warned := rfl
      logged := Finding.message_warnings declaration.start findings }⟩

/-- A declaration that cannot be read is reported by its error. -/
theorem Unreadable.exists_reports
    (unreadable : Unreadable config tokens declaration error) :
    ∃ report, Reports config tokens declaration report := by
  have grounded := Grounded.unreadable unreadable
  refine reports_of_grounded [_] ?_ (Nat.le_refl 1) (List.forall_mem_singleton.mpr grounded) ?_
  · unfold report
    rw [unreadable.findings]
    rfl
  · intro other again
    have sameError := again.findings.symm.trans unreadable.findings
    cases sameError
    exact ⟨_, List.mem_singleton_self _, Finding.shows_unreadable _⟩

/-- What a comparison finds has a place once it is located. -/
theorem grounded_of_raised
    {docs : List ParameterDoc}
    {finding : Finding}
    (found : commentsAbove tokens declaration.start = .ok comments)
    (answer : DocBlock.docs config comments = .ok docs)
    (raised : Agreement.Raised docs finding) :
    Grounded config tokens declaration finding.located := by
  cases raised with
  | missing names => exact .missing names
  | unused names => exact .unused names
  | misordered documented =>
      obtain ⟨comment, inBlock, isHeader, atLine⟩ :=
        DocBlock.exists_header_of_docs answer documented
      obtain ⟨inClosing, isComment⟩ := mem_closingBlock_of_commentsAbove found inBlock
      rw [← atLine]
      exact .misordered inClosing isComment isHeader

/-- A declaration that is compared is reported by what the comparison finds. -/
theorem exists_reports_of_compared
    {docs : List ParameterDoc}
    (found : commentsAbove tokens declaration.start = .ok comments)
    (answer : DocBlock.docs config comments = .ok docs)
    (compared :
      declaration.findings config tokens = .ok (Agreement.findings parameters docs)) :
    ∃ report, Reports config tokens declaration report := by
  have readable : ∀ error, ¬ Unreadable config tokens declaration error := by
    intro error unreadable
    have sameAnswer := unreadable.findings.symm.trans compared
    cases sameAnswer
  have complete (findings : List Finding) :
      ∀ error,
        Unreadable config tokens declaration error →
          ∃ finding ∈ findings, finding.Shows error :=
    fun error unreadable => (readable error unreadable).elim
  rcases Agreement.findings_cases parameters docs with clean | ⟨finding, alone, raised⟩
  · rw [clean] at compared
    refine reports_of_grounded [] ?_ (Nat.zero_le 1) (List.forall_mem_nil _) (complete [])
    unfold report
    rw [compared]
    rfl
  · rw [alone] at compared
    have grounded := grounded_of_raised found answer raised
    refine
      reports_of_grounded [_] ?_ (Nat.le_refl 1) (List.forall_mem_singleton.mpr grounded)
        (complete _)
    unfold report
    rw [compared]
    cases raised <;> rfl

theorem OutOfReach.report
    (outOfReach : OutOfReach config tokens declaration) :
    declaration.report config tokens = .error (.startOutOfRange declaration.start) := by
  unfold Declaration.report
  rw [outOfReach.findings]

/-- Every other declaration is reported. -/
theorem exists_reports
    (fits : Fault.ofRun? config.descriptionIndent = none)
    (inReach : ¬ OutOfReach config tokens declaration) :
    ∃ report, Reports config tokens declaration report := by
  rcases findings_cases fits tokens declaration with
    ⟨error, unreadable⟩ | outOfReach |
      ⟨parameters, comments, docs, found, answer, compared⟩
  · exact unreadable.exists_reports
  · exact (inReach outOfReach).elim
  · exact exists_reports_of_compared found answer compared

end Readings

end Declaration

end DocAudit
