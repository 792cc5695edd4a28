import DocAudit.Proofs.Audit.Faithful

namespace DocAudit

/-!
# Files in a row

What stands above a declaration is looked at only as far as the run of comments
and line ends goes that ends in front of it. So a file behind another one is
audited as it is on its own, unless the first one ends in comments: these would
belong to the block above the first declaration of the second file. Only the places
in the warnings move. The main statement is `ofDeclarations_append_files`.
-/

/-- A declaration whose file stands behind a number of other tokens. -/
def Declaration.moved
    (offset : Nat)
    (declaration : Declaration) :
    Declaration :=
  { declaration with start := declaration.start + offset }

/-- A warning about a declaration whose file stands behind a number of other tokens. -/
def Warning.moved
    (offset : Nat)
    (warning : Warning) :
    Warning :=
  { warning with start := warning.start + offset }

/-- A report about a file that stands behind a number of other tokens. -/
def Report.moved
    (offset : Nat)
    (report : Report) :
    Report :=
  { report with warnings := report.warnings.map (Warning.moved offset) }

/-- An audit of a file that stands behind a number of other tokens. -/
def Audit.moved
    (offset : Nat)
    (audit : Audit) :
    Audit :=
  { audit with report := audit.report.moved offset }

/-- An audit and then another one, unless a fault ended the first one. -/
def Audit.followedBy (first second : Audit) : Audit :=
  match first.fault? with
  | some _ => first
  | none => second.after first.report

namespace Declaration

/-- Two files that look the same from a place, looking upwards. -/
inductive SameAbove
    (start : Int) :
    List Token →
    List Token →
    Prop where
  /-- The same run of comments and line ends ends there, behind some other token. -/
  | block
      {above other block below otherBelow : List Token} :
      start.toNat = (above ++ block).length →
      other.length = above.length →
      (∀ token ∈ block, token.isBlockPart = true) →
      (∀ token ∈ above.getLast?, token.isBlockPart = false) →
      (∀ token ∈ other.getLast?, token.isBlockPart = false) →
      SameAbove start (above ++ block ++ below) (other ++ block ++ otherBelow)
  /-- The place is behind the end of both. -/
  | outside
      {tokens other : List Token} :
      tokens.length < start →
      other.length < start →
      SameAbove start tokens other

section Places

variable
  {config : Config}
  {tokens other first second : List Token}
  {declaration : Declaration}
  {start : Int}

/-- The first of two files is looked at as it is on its own. -/
theorem commentsAbove_append
    (inFirst : start ≤ first.length) :
    commentsAbove (first ++ second) start = commentsAbove first start := by
  have inBoth : start ≤ (first ++ second).length := by
    rw [List.length_append]
    omega
  have sameFront : (first ++ second).take start.toNat = first.take start.toNat :=
    List.take_append_of_le_length (Int.toNat_le.mpr inFirst)
  rw [commentsAbove_of_le inBoth, commentsAbove_of_le inFirst, sameFront]

/-- The second of two files is, too, when the first one does not end in comments. -/
theorem commentsAbove_append_moved
    (bare : ∀ token ∈ closingBlock first, token.isComment = false)
    (placed : 0 ≤ start ∧ start ≤ second.length) :
    commentsAbove (first ++ second) (start + first.length) =
      commentsAbove second start := by
  have inBoth : start + first.length ≤ (first ++ second).length := by
    rw [List.length_append]
    omega
  have reach : (start + first.length).toNat = first.length + start.toNat := by
    omega
  rw [commentsAbove_of_le inBoth, commentsAbove_of_le placed.2, reach,
    List.take_length_add_append, filter_closingBlock_append bare]

/-- Files that look the same from a place have the same comments above it. -/
theorem SameAbove.commentsAbove_eq
    (same : SameAbove start tokens other) :
    commentsAbove tokens start = commentsAbove other start := by
  cases same with
  | @block above otherAbove block below otherBelow reaches sameHeight isBlock edge otherEdge =>
      have commentsOf :
          ∀ {front back : List Token},
            front.length = above.length →
              (∀ token ∈ front.getLast?, token.isBlockPart = false) →
                commentsAbove (front ++ block ++ back) start =
                  .ok (block.filter Token.isComment) := by
        intro front back height frontEdge
        have reach : start.toNat = (front ++ block).length := by
          rw [reaches, List.length_append, List.length_append, height]
        have inside : start ≤ (front ++ block ++ back).length := by
          rw [List.length_append, ← reach]
          omega
        rw [commentsAbove_of_le inside, reach, List.take_append_length,
          closingBlock_append isBlock frontEdge]
      rw [commentsOf rfl edge, commentsOf sameHeight otherEdge]
  | outside behind otherBehind =>
      rw [commentsAbove_eq_error_iff.mpr ⟨behind, rfl⟩,
        commentsAbove_eq_error_iff.mpr ⟨otherBehind, rfl⟩]

/-- A file is looked at for the comments above the declaration only. -/
theorem report_eq_of_commentsAbove
    (sameComments :
      commentsAbove tokens declaration.start = commentsAbove other declaration.start) :
    declaration.report config tokens = declaration.report config other := by
  unfold report findings
  rw [sameComments]

theorem report_moved
    (bare : ∀ token ∈ closingBlock first, token.isComment = false)
    (placed : 0 ≤ declaration.start ∧ declaration.start ≤ second.length) :
    (declaration.moved first.length).report config (first ++ second) =
      (declaration.report config second).map (Report.moved first.length) := by
  have sameFindings :
      (declaration.moved first.length).findings config (first ++ second) =
        declaration.findings config second := by
    unfold findings moved
    rw [commentsAbove_append_moved bare placed]
  unfold report
  rw [sameFindings]
  cases declaration.findings config second with
  | ok findings => rfl
  | error fault => cases fault <;> rfl

end Places

end Declaration

namespace Audit

variable
  {config : Config}
  {tokens other first second : List Token}
  {declarations before after : List Declaration}

theorem after_followedBy
    (audit next : Audit)
    (report : Report) :
    (audit.after report).followedBy next = (audit.followedBy next).after report := by
  rcases audit with ⟨reported, fault?⟩
  cases fault? with
  | some fault => rfl
  | none => exact (after_after next report reported).symm

/-- The declarations of a file are audited in order. -/
theorem ofDeclarations_append_declarations
    (config : Config)
    (tokens : List Token)
    (before after : List Declaration) :
    ofDeclarations config tokens (before ++ after) =
      (ofDeclarations config tokens before).followedBy
        (ofDeclarations config tokens after) := by
  induction before with
  | nil => rfl
  | cons declaration rest inductionHypothesis =>
      rw [List.cons_append, ofDeclarations, ofDeclarations]
      cases declaration.report config tokens with
      | error fault => rfl
      | ok report =>
          rw [inductionHypothesis]
          exact (after_followedBy _ _ report).symm

/-- Declarations that are reported the same in two files are audited the same. -/
theorem ofDeclarations_congr
    (sameReports :
      ∀ declaration ∈ declarations,
        declaration.report config tokens = declaration.report config other) :
    ofDeclarations config tokens declarations =
      ofDeclarations config other declarations := by
  induction declarations with
  | nil => rfl
  | cons declaration rest inductionHypothesis =>
      obtain ⟨sameHere, sameRest⟩ := List.forall_mem_cons.mp sameReports
      rw [ofDeclarations, ofDeclarations, sameHere, inductionHypothesis sameRest]

theorem after_moved
    (offset : Nat)
    (audit : Audit)
    (report : Report) :
    (audit.after report).moved offset =
      (audit.moved offset).after (report.moved offset) := by
  change Audit.mk ⟨_, (report.warnings ++ _).map _⟩ _ = _
  rw [List.map_append]
  rfl

/-- A file behind one that does not end in comments is audited as it is on its own. -/
theorem ofDeclarations_moved
    (bare : ∀ token ∈ Declaration.closingBlock first, token.isComment = false)
    (placed :
      ∀ declaration ∈ declarations,
        0 ≤ declaration.start ∧ declaration.start ≤ second.length) :
    ofDeclarations config (first ++ second)
        (declarations.map (Declaration.moved first.length)) =
      (ofDeclarations config second declarations).moved first.length := by
  induction declarations with
  | nil => rfl
  | cons declaration rest inductionHypothesis =>
      obtain ⟨placedHere, placedRest⟩ := List.forall_mem_cons.mp placed
      rw [List.map_cons, ofDeclarations, ofDeclarations,
        Declaration.report_moved bare placedHere]
      cases declaration.report config second with
      | error fault => rfl
      | ok report =>
          simp only [Except.map]
          rw [inductionHypothesis placedRest]
          exact (after_moved first.length _ report).symm

/--
Two files in a row, of which the first does not end in comments, are audited one
after the other: the findings and the warnings of the second file follow those of
the first, and only the places in its warnings move. A declaration is audited the
same in all files that look the same from it: nothing counts from its start on, and
nothing above the nearest token that is neither a comment nor a line end.
-/
theorem ofDeclarations_append_files (config : Config) :
    (∀ {first second : List Token} {before after : List Declaration},
        (∀ token ∈ Declaration.closingBlock first, token.isComment = false) →
          (∀ declaration ∈ before, declaration.start ≤ first.length) →
            (∀ declaration ∈ after,
                0 ≤ declaration.start ∧ declaration.start ≤ second.length) →
              ofDeclarations config (first ++ second)
                  (before ++ after.map (Declaration.moved first.length)) =
                (ofDeclarations config first before).followedBy
                  ((ofDeclarations config second after).moved first.length)) ∧
      ∀ {tokens other : List Token} {declaration : Declaration},
        Declaration.SameAbove declaration.start tokens other →
          ofDeclaration config tokens declaration =
            ofDeclaration config other declaration := by
  constructor
  · intro first second before after bare inFirst placed
    have firstAlone :
        ofDeclarations config (first ++ second) before =
          ofDeclarations config first before := by
      apply ofDeclarations_congr
      intro declaration member
      exact
        Declaration.report_eq_of_commentsAbove
          (Declaration.commentsAbove_append (inFirst declaration member))
    rw [ofDeclarations_append_declarations, firstAlone, ofDeclarations_moved bare placed]
  · intro tokens other declaration same
    apply ofDeclarations_congr
    intro only member
    rw [List.mem_singleton.mp member]
    exact Declaration.report_eq_of_commentsAbove same.commentsAbove_eq

/-- A file that ends in a line end. -/
def firstFile : List Token :=
  [⟨.comment, " @param lost", ⟨1, 3⟩⟩, ⟨.other, "class", ⟨2, 1⟩⟩,
    ⟨.newline, "\n", ⟨2, 6⟩⟩]

/-- A file that begins with a block. -/
def secondFile : List Token :=
  [⟨.comment, " @param name", ⟨1, 3⟩⟩, ⟨.newline, "\n", ⟨1, 15⟩⟩,
    ⟨.comment, "   A name.", ⟨2, 3⟩⟩, ⟨.other, "class", ⟨3, 1⟩⟩]

/-- A class with one parameter, at some place. -/
def namedClass (start : Int) : Declaration where
  start := start
  parameterTokens := [⟨.parameterName, "$name", .first⟩]

/-- A class that cannot be read, at some place. -/
def brokenClass (start : Int) : Declaration where
  start := start
  parameterTokens := [⟨.comma, ",", ⟨3, 8⟩⟩]

/--
The class at the seam has no comments above it, the one behind it has its own, and
the warning about the class that cannot be read tells its place in the whole.
-/
theorem ofDeclarations_append_files_seam :
    (∀ token ∈ Declaration.closingBlock firstFile, token.isComment = false) ∧
      ofDeclarations Config.standard (firstFile ++ secondFile)
          ([namedClass 1] ++
            [namedClass 0, namedClass 3, brokenClass 2].map (Declaration.moved 3)) =
        (ofDeclarations Config.standard firstFile [namedClass 1]).followedBy
          ((ofDeclarations Config.standard secondFile
            [namedClass 0, namedClass 3, brokenClass 2]).moved 3) ∧
        ofDeclarations Config.standard (firstFile ++ secondFile)
            [namedClass 1, namedClass 3, namedClass 6, brokenClass 5] =
          { report :=
              { findings :=
                  [⟨.misordered "lost", some ⟨1, 1⟩⟩, ⟨.missing ["name"], some ⟨1, 1⟩⟩,
                    ⟨.unreadable (.unexpectedToken ⟨.comma, ",", ⟨3, 8⟩⟩ "start"),
                      some ⟨3, 8⟩⟩]
                warnings := [⟨5, .unexpectedToken ⟨.comma, ",", ⟨3, 8⟩⟩ "start"⟩] }
            fault? := none } :=
  ⟨by decide,
    (ofDeclarations_append_files Config.standard).1 (by decide) (by decide) (by decide),
    by decide +kernel⟩

end Audit

end DocAudit
