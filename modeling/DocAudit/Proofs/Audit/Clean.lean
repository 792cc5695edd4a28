import DocAudit.Audit
import DocAudit.Proofs.Agreement.Findings
import DocAudit.Proofs.Declaration.ClosingBlock
import DocAudit.Proofs.DocBlock.Names

namespace DocAudit

/-!
# Clean audits

An audit of one declaration is clean when it ends without fault and without
finding. Nothing is lost on the way: a declaration that cannot be read gives a
finding, so a clean audit has read the parameter list, the place of the
declaration and the comments above it, and the header lines of these comments
spell out the parameters one by one.
-/

namespace Declaration

/-- A report has no finding exactly when the declaration can be read without finding. -/
theorem report_findings_eq_nil_iff
    (config : Config)
    (tokens : List Token)
    (declaration : Declaration) :
    (declaration.report config tokens).map Report.findings = .ok [] ↔
      declaration.findings config tokens = .ok [] := by
  unfold report
  cases read : declaration.findings config tokens with
  | ok findings => simp [Except.map]
  | error fault => cases fault <;> simp [Except.map]

/-- A declaration is read without finding exactly when it is read and the names agree. -/
theorem findings_eq_ok_nil_iff
    (config : Config)
    (tokens : List Token)
    (declaration : Declaration) :
    declaration.findings config tokens = .ok [] ↔
      ∃ parameters comments docs,
        Signature.parameters config declaration.parameterTokens = .ok parameters ∧
          commentsAbove tokens declaration.start = .ok comments ∧
            DocBlock.docs config comments = .ok docs ∧
              parameters.map Parameter.name = docs.map ParameterDoc.name := by
  unfold findings
  cases Signature.parameters config declaration.parameterTokens with
  | error fault => simp [bind, Except.bind]
  | ok parameters =>
      cases commentsAbove tokens declaration.start with
      | error fault => simp [bind, Except.bind]
      | ok comments =>
          cases answer : DocBlock.docs config comments with
          | error fault => simp [bind, Except.bind, answer]
          | ok docs =>
              simp [bind, Except.bind, pure, Except.pure, answer,
                Agreement.findings_eq_nil_iff]

theorem exists_commentsAbove_iff
    (tokens : List Token)
    (start : Int) :
    (∃ comments, commentsAbove tokens start = .ok comments) ↔
      start ≤ tokens.length := by
  rcases Int.lt_or_le tokens.length start with behind | notBehind
  · simp [commentsAbove_of_lt behind, Int.not_le.mpr behind]
  · simp [commentsAbove_of_le notBehind, notBehind]

end Declaration

namespace Audit

theorem findings_ofDeclaration
    (config : Config)
    (tokens : List Token)
    (declaration : Declaration) :
    (ofDeclaration config tokens declaration).findings =
      (declaration.report config tokens).map Report.findings := by
  unfold ofDeclaration ofDeclarations
  cases declaration.report config tokens with
  | error fault => rfl
  | ok report =>
      change Except.ok (report.findings ++ []) = Except.ok report.findings
      rw [List.append_nil]

/--
The audit of one declaration finds nothing exactly when the parameter list can be
read, the declaration does not start behind the end of the file, the comments
above it can be read, and the lines of these comments that mention the marker are
the header lines of the parameters, one for each and in the same order.
-/
theorem clean_iff_headerLines
    (config : Config)
    (tokens : List Token)
    (declaration : Declaration) :
    (ofDeclaration config tokens declaration).findings = .ok [] ↔
      declaration.start ≤ tokens.length ∧
        ∃ parameters comments docs,
          Signature.parameters config declaration.parameterTokens = .ok parameters ∧
            Declaration.commentsAbove tokens declaration.start = .ok comments ∧
              DocBlock.docs config comments = .ok docs ∧
                (comments.filter Token.mentionsParam).map Token.trimmed =
                  parameters.map fun parameter => "@param " ++ parameter.name := by
  rw [findings_ofDeclaration, Declaration.report_findings_eq_nil_iff,
    Declaration.findings_eq_ok_nil_iff]
  constructor
  · rintro ⟨parameters, comments, docs, signatureRead, placed, blockRead, sameNames⟩
    refine
      ⟨(Declaration.exists_commentsAbove_iff tokens declaration.start).mp
          ⟨comments, placed⟩,
        parameters, comments, docs, signatureRead, placed, blockRead, ?_⟩
    rw [← DocBlock.headerLines_of_docs blockRead, ← sameNames, List.map_map]
    rfl
  · rintro ⟨_, parameters, comments, docs, signatureRead, placed, blockRead, sameLines⟩
    refine ⟨parameters, comments, docs, signatureRead, placed, blockRead, ?_⟩
    apply DocBlock.headerLine_injective.list_map
    rw [DocBlock.headerLines_of_docs blockRead, sameLines, List.map_map]
    rfl

end Audit

end DocAudit
