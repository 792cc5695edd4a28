import DocAudit.Proofs.Audit.Reports

namespace DocAudit

/-!
# What an audit reports

An audit puts the reports about the declarations of a file together, in order. Only a
declaration without place in the file ends it, unless its parameter list cannot be
read, and the warnings in front of it remain. The main statement is
`faithful_ofDeclarations`.
-/

/-- The reports about several declarations, put together in order. -/
def Report.concat (reports : List Report) : Report where
  findings := reports.flatMap Report.findings
  warnings := reports.flatMap Report.warnings

namespace Audit

variable
  {config : Config}
  {tokens : List Token}
  {declarations before after : List Declaration}
  {declaration : Declaration}
  {reports : List Report}

theorem after_after
    (audit : Audit)
    (first second : Report) :
    (audit.after second).after first = audit.after (first ++ second) := by
  change Audit.mk ⟨first.findings ++ (second.findings ++ _), _⟩ _ = _
  rw [← List.append_assoc]
  change Audit.mk ⟨_, first.warnings ++ (second.warnings ++ _)⟩ _ = _
  rw [← List.append_assoc]
  rfl

theorem after_of_empty
    (fault? : Option Fault)
    (report : Report) :
    (Audit.mk .empty fault?).after report = ⟨report, fault?⟩ := by
  change Audit.mk ⟨report.findings ++ [], report.warnings ++ []⟩ fault? = _
  rw [List.append_nil, List.append_nil]

/-- The reports about declarations stand in front of what the others give. -/
theorem ofDeclarations_append
    (reported : List.Forall₂ (Declaration.Reports config tokens) before reports)
    (rest : List Declaration) :
    ofDeclarations config tokens (before ++ rest) =
      (ofDeclarations config tokens rest).after (.concat reports) := by
  induction reported with
  | nil => rfl
  | cons reportedHere _ inductionHypothesis =>
      rw [List.cons_append, ofDeclarations, reportedHere.answers, inductionHypothesis]
      exact after_after _ _ _

/-- Declarations that have a place in their file are all reported. -/
theorem exists_reports
    (fits : Fault.ofRun? config.descriptionIndent = none)
    (inReach :
      ∀ declaration ∈ declarations, ¬ declaration.OutOfReach config tokens) :
    ∃ reports,
      List.Forall₂ (Declaration.Reports config tokens) declarations reports := by
  induction declarations with
  | nil => exact ⟨[], .nil⟩
  | cons declaration rest inductionHypothesis =>
      obtain ⟨atHead, inRest⟩ := List.forall_mem_cons.mp inReach
      obtain ⟨report, reported⟩ := Declaration.exists_reports fits atHead
      obtain ⟨others, reportedRest⟩ := inductionHypothesis inRest
      exact ⟨report :: others, .cons reported reportedRest⟩

/-- A declaration without place stops the audit behind those in front of it. -/
theorem ofDeclarations_of_outOfReach
    (reported : List.Forall₂ (Declaration.Reports config tokens) before reports)
    (outOfReach : declaration.OutOfReach config tokens) :
    ofDeclarations config tokens (before ++ declaration :: after) =
      ⟨.concat reports, some (.startOutOfRange declaration.start)⟩ := by
  rw [ofDeclarations_append reported, ofDeclarations, outOfReach.report]
  exact after_of_empty _ _

/-- An audit of declarations that are all reported puts their reports together. -/
theorem ofDeclarations_of_reports
    (reported : List.Forall₂ (Declaration.Reports config tokens) declarations reports) :
    ofDeclarations config tokens declarations = ⟨.concat reports, none⟩ := by
  have appended := ofDeclarations_append reported []
  rw [List.append_nil] at appended
  exact appended.trans (after_of_empty _ _)

theorem exists_first_outOfReach
    (some :
      ∃ declaration ∈ declarations, declaration.OutOfReach config tokens) :
    ∃ before declaration after,
      declarations = before ++ declaration :: after ∧
        (∀ earlier ∈ before, ¬ earlier.OutOfReach config tokens) ∧
          declaration.OutOfReach config tokens := by
  induction declarations with
  | nil =>
      obtain ⟨_, member, _⟩ := some
      cases member
  | cons first rest inductionHypothesis =>
      by_cases atHead : first.OutOfReach config tokens
      · exact ⟨[], first, rest, rfl, by simp, atHead⟩
      · have inRest :
            ∃ declaration ∈ rest, declaration.OutOfReach config tokens := by
          simpa [atHead] using some
        obtain ⟨before, declaration, after, rfl, inReach, outOfReach⟩ :=
          inductionHypothesis inRest
        exact
          ⟨first :: before, declaration, after, rfl,
            List.forall_mem_cons.mpr ⟨atHead, inReach⟩, outOfReach⟩

/-- What the audit of a file says about the declarations of the file. -/
structure Faithful
    (config : Config)
    (tokens : List Token)
    (declarations : List Declaration)
    (audit : Audit) : Prop where
  /-- Only a declaration without place in the file ends an audit. -/
  fault :
    ∀ fault,
      audit.findings = .error fault →
        ∃ declaration ∈ declarations, fault = .startOutOfRange declaration.start
  /-- It does so if its parameter list can be read. -/
  ends_iff :
    (∃ fault, audit.findings = .error fault) ↔
      ∃ declaration ∈ declarations, declaration.OutOfReach config tokens
  /-- The first one ends it, and the warnings about those in front of it remain. -/
  ends :
    ∀ before declaration after,
      declarations = before ++ declaration :: after →
        (∀ earlier ∈ before, ¬ earlier.OutOfReach config tokens) →
          declaration.OutOfReach config tokens →
            audit.findings = .error (.startOutOfRange declaration.start) ∧
              ∃ reports,
                List.Forall₂ (Declaration.Reports config tokens) before reports ∧
                  audit.report.warnings = reports.flatMap Report.warnings
  /-- Without such a declaration, the reports about all of them stand in order. -/
  completes :
    (∀ declaration ∈ declarations, ¬ declaration.OutOfReach config tokens) →
      ∃ reports,
        List.Forall₂ (Declaration.Reports config tokens) declarations reports ∧
          audit.findings = .ok (reports.flatMap Report.findings) ∧
            audit.report.warnings = reports.flatMap Report.warnings

theorem ends_of_first
    (fits : Fault.ofRun? config.descriptionIndent = none)
    (isFirst : declarations = before ++ declaration :: after)
    (inReach : ∀ earlier ∈ before, ¬ earlier.OutOfReach config tokens)
    (outOfReach : declaration.OutOfReach config tokens) :
    (ofDeclarations config tokens declarations).findings =
        .error (.startOutOfRange declaration.start) ∧
      ∃ reports,
        List.Forall₂ (Declaration.Reports config tokens) before reports ∧
          (ofDeclarations config tokens declarations).report.warnings =
            reports.flatMap Report.warnings := by
  obtain ⟨reports, reported⟩ := exists_reports fits inReach
  rw [isFirst, ofDeclarations_of_outOfReach reported outOfReach]
  exact ⟨rfl, reports, reported, rfl⟩

theorem completes_of_inReach
    (fits : Fault.ofRun? config.descriptionIndent = none)
    (inReach : ∀ declaration ∈ declarations, ¬ declaration.OutOfReach config tokens) :
    ∃ reports,
      List.Forall₂ (Declaration.Reports config tokens) declarations reports ∧
        (ofDeclarations config tokens declarations).findings =
            .ok (reports.flatMap Report.findings) ∧
          (ofDeclarations config tokens declarations).report.warnings =
            reports.flatMap Report.warnings := by
  obtain ⟨reports, reported⟩ := exists_reports fits inReach
  rw [ofDeclarations_of_reports reported]
  exact ⟨reports, reported, rfl, rfl⟩

/--
Where runs of spaces as long as the description indent can be made, the audit of a
file is faithful to the declarations of the file.
-/
theorem faithful_ofDeclarations
    {config : Config}
    (fits : Fault.ofRun? config.descriptionIndent = none)
    (tokens : List Token)
    (declarations : List Declaration) :
    Faithful config tokens declarations (ofDeclarations config tokens declarations) := by
  have outOfReach_of_fault :
      ∀ fault,
        (ofDeclarations config tokens declarations).findings = .error fault →
          ∃ declaration ∈ declarations,
            declaration.OutOfReach config tokens ∧
              fault = .startOutOfRange declaration.start := by
    intro fault answers
    by_cases someOut : ∃ declaration ∈ declarations, declaration.OutOfReach config tokens
    · obtain ⟨before, declaration, after, isFirst, inReach, outOfReach⟩ :=
        exists_first_outOfReach someOut
      obtain ⟨ended, _⟩ := ends_of_first fits isFirst inReach outOfReach
      have member : declaration ∈ declarations := by
        simp [isFirst]
      exact
        ⟨declaration, member, outOfReach, Except.error.inj (answers.symm.trans ended)⟩
    · have inReach :
          ∀ declaration ∈ declarations, ¬ declaration.OutOfReach config tokens :=
        fun declaration member isOut => someOut ⟨declaration, member, isOut⟩
      obtain ⟨_, _, completed, _⟩ := completes_of_inReach fits inReach
      cases completed.symm.trans answers
  constructor
  case fault =>
    intro fault answers
    obtain ⟨declaration, member, _, isFault⟩ := outOfReach_of_fault fault answers
    exact ⟨declaration, member, isFault⟩
  case ends_iff =>
    constructor
    · rintro ⟨fault, answers⟩
      obtain ⟨declaration, member, outOfReach, _⟩ := outOfReach_of_fault fault answers
      exact ⟨declaration, member, outOfReach⟩
    · intro someOut
      obtain ⟨before, declaration, after, isFirst, inReach, outOfReach⟩ :=
        exists_first_outOfReach someOut
      obtain ⟨ended, _⟩ := ends_of_first fits isFirst inReach outOfReach
      exact ⟨_, ended⟩
  case ends =>
    intro before declaration after isFirst inReach outOfReach
    exact ends_of_first fits isFirst inReach outOfReach
  case completes =>
    intro inReach
    exact completes_of_inReach fits inReach

/-- A file with a block that documents two parameters. -/
def swappedFile : List Token :=
  [⟨.comment, " @param name", ⟨2, 3⟩⟩, ⟨.comment, "   A name.", ⟨3, 3⟩⟩,
    ⟨.comment, "", ⟨4, 3⟩⟩, ⟨.comment, " @param port", ⟨5, 3⟩⟩,
    ⟨.comment, "   A port.", ⟨6, 3⟩⟩, ⟨.other, "class", ⟨7, 1⟩⟩]

/-- A class with the two parameters in the other order. -/
def swappedClass : Declaration where
  start := 5
  parameterTokens :=
    [⟨.parameterName, "$port", ⟨8, 1⟩⟩, ⟨.comma, ",", ⟨8, 6⟩⟩,
      ⟨.parameterName, "$name", ⟨8, 8⟩⟩]

/-- The equals sign of a parameter without name. -/
def namelessEquals : Token :=
  ⟨.equals, "=", ⟨9, 4⟩⟩

/-- A class that can neither be read nor be found in the file. -/
def namelessClass : Declaration where
  start := 40
  parameterTokens := [namelessEquals]

/-- A class without parameters that starts behind the end of the file. -/
def lostClass : Declaration where
  start := 7

/-- The audit of the three classes. -/
def swappedAudit : Audit :=
  ofDeclarations Config.standard swappedFile [swappedClass, namelessClass, lostClass]

/--
The first class is out of order, the second one cannot be read, and the third one
ends the audit.
-/
theorem faithful_ofDeclarations_swappedFile :
    Fault.ofRun? Config.standard.descriptionIndent = none ∧
      swappedAudit.findings = .error (.startOutOfRange 7) ∧
        swappedAudit.report =
          { findings :=
              [⟨.misordered "name", some ⟨2, 1⟩⟩,
                ⟨.unreadable (.unexpectedToken namelessEquals "start"), some ⟨9, 4⟩⟩]
            warnings := [⟨40, .unexpectedToken namelessEquals "start"⟩] } ∧
          swappedAudit.report.findings.map Finding.message =
            ["Parameters sorted wrong",
              "Can not process the token '=' in the state start"] ∧
            swappedAudit.report.warnings.map Warning.message =
              ["Skipping declaration at token 40: " ++
                "Can not process the token '=' in the state start"] ∧
              Faithful Config.standard swappedFile
                [swappedClass, namelessClass, lostClass] swappedAudit :=
  ⟨rfl, by decide +kernel, by decide +kernel, by decide +kernel, by decide +kernel,
    faithful_ofDeclarations rfl _ _⟩

end Audit

end DocAudit
