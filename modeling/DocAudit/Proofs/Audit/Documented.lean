import DocAudit.Proofs.Audit.Clean
import DocAudit.Proofs.Declaration.ClosingBlock
import DocAudit.Proofs.DocBlock.Layout

namespace DocAudit.Audit

/-!
# Documented declarations

A declaration that is documented in the layout gives no finding and no warning,
whatever the texts of its descriptions are, and wherever line ends stand between
the comments of the block above it.
-/

theorem ofDeclaration_eq_empty
    {config : Config}
    {tokens : List Token}
    {declaration : Declaration}
    (clean : declaration.findings config tokens = .ok []) :
    ofDeclaration config tokens declaration = .empty := by
  unfold ofDeclaration ofDeclarations Declaration.report
  rw [clean]
  rfl

/--
A declaration gives no finding and no warning when its parameter list can be read,
and the run of comments and line ends in front of it documents the parameters in
the layout.
-/
theorem clean_of_layout
    {config : Config}
    {tokens above block : List Token}
    {declaration : Declaration}
    {parameters : List Parameter}
    (signatureRead :
      Signature.parameters config declaration.parameterTokens = .ok parameters)
    (placed : 0 ≤ declaration.start ∧ declaration.start ≤ tokens.length)
    (inFront : tokens.take declaration.start.toNat = above ++ block)
    (isBlock : ∀ token ∈ block, token.isBlockPart = true)
    (edge : ∀ token ∈ above.getLast?, token.isBlockPart = false)
    (layout :
      DocBlock.Layout
        config.descriptionIndent
        (parameters.map Parameter.name)
        (block.filter Token.isComment)) :
    (ofDeclaration config tokens declaration).findings = .ok [] ∧
      (ofDeclaration config tokens declaration).report.warnings = [] := by
  obtain ⟨docs, blockRead, documented⟩ := layout.exists_docs
  have commentsRead :=
    Declaration.commentsAbove_of_append placed inFront isBlock edge
  have clean : declaration.findings config tokens = .ok [] :=
    (Declaration.findings_eq_ok_nil_iff config tokens declaration).mpr
      ⟨parameters, block.filter Token.isComment, docs, signatureRead, commentsRead,
        blockRead, documented.symm⟩
  rw [ofDeclaration_eq_empty clean]
  exact ⟨rfl, rfl⟩

/-- What stands above the documented class: the end of another declaration. -/
def documentedAbove : List Token :=
  [⟨.comment, " @param other", .first⟩, ⟨.closeBrace, "\x7d", .first⟩]

/-- A block with a hash, its option, two paragraphs, and a second parameter. -/
def documentedBlock : List Token :=
  [⟨.newline, "\n", .first⟩, ⟨.comment, " @param settings", .first⟩,
    ⟨.newline, "\n", .first⟩, ⟨.comment, "   Settings.", .first⟩,
    ⟨.comment, "", .first⟩, ⟨.comment, "   More of them.", .first⟩,
    ⟨.comment, " @option settings [Boolean] :enabled", .first⟩,
    ⟨.comment, "  Whether it runs.", .first⟩, ⟨.comment, " \t", .first⟩,
    ⟨.comment, " @param name", .first⟩, ⟨.comment, "   A name.", .first⟩,
    ⟨.newline, "\n", .first⟩]

/-- A class with two parameters, behind its block. -/
def documentedClass : Declaration where
  start := 14
  parameterTokens :=
    [⟨.parameterName, "$settings", .first⟩, ⟨.comma, ",", .first⟩,
      ⟨.parameterName, "$name", .first⟩]

/-- The block documents the two parameters in the layout. -/
theorem layout_documentedBlock :
    DocBlock.Layout Config.standard.descriptionIndent ["settings", "name"]
      (documentedBlock.filter Token.isComment) :=
  ⟨_,
    .next (.mk (.spaced .last) (.next "Boolean" "enabled" .last .empty))
      (.last (.mk .last .empty)),
    by decide +kernel⟩

/-- The class is read, and its audit gives no finding and no warning. -/
theorem clean_of_layout_documentedClass :
    Signature.parameters Config.standard documentedClass.parameterTokens =
        .ok
          [⟨"settings", "", .mandatory, "", "undef"⟩,
            ⟨"name", "", .mandatory, "", "undef"⟩] ∧
      (ofDeclaration Config.standard (documentedAbove ++ documentedBlock)
          documentedClass).findings =
        .ok [] ∧
      (ofDeclaration Config.standard (documentedAbove ++ documentedBlock)
          documentedClass).report.warnings =
        [] := by
  have inFront :
      (documentedAbove ++ documentedBlock).take documentedClass.start.toNat =
        documentedAbove ++ documentedBlock :=
    rfl
  exact
    ⟨rfl,
      clean_of_layout rfl (by decide) inFront (by decide) (by decide)
        layout_documentedBlock⟩

end DocAudit.Audit
