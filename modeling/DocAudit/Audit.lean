import DocAudit.Agreement
import DocAudit.Declaration
import DocAudit.DocBlock.Parser
import DocAudit.Signature.Parser

namespace DocAudit

/-!
# Audits

The audit of a declaration reads its parameter list first, the comments above it
second, and compares the two. A declaration that cannot be read is skipped with
a warning and gives one finding. The audit of a file goes through its
declarations in order and puts their reports together; a fault other than an
unreadable declaration ends it and keeps the warnings given so far.
-/

/-- The warning that a declaration is skipped. -/
structure Warning where
  start : Int
  error : ParseError
  deriving Repr, DecidableEq

/-- The message of a warning. -/
def Warning.message (warning : Warning) : String :=
  s!"Skipping declaration at token {warning.start}: " ++ warning.error.message

/-- What an audit reports: findings and warnings, both in order. -/
structure Report where
  findings : List Finding
  warnings : List Warning
  deriving Repr, DecidableEq

namespace Report

/-- The report about nothing. -/
def empty : Report where
  findings := []
  warnings := []

/-- One report after another. -/
def append (first second : Report) : Report where
  findings := first.findings ++ second.findings
  warnings := first.warnings ++ second.warnings

instance : Append Report :=
  ⟨append⟩

end Report

namespace Declaration

/-- The findings about a declaration that can be read. -/
def findings
    (config : Config)
    (tokens : List Token)
    (declaration : Declaration) :
    Except Fault (List Finding) := do
  let parameters ← Signature.parameters config declaration.parameterTokens
  let comments ← commentsAbove tokens declaration.start
  let docs ← DocBlock.docs config comments
  return Agreement.findings parameters docs

/-- The report about a declaration, or the fault that ends the audit. -/
def report
    (config : Config)
    (tokens : List Token)
    (declaration : Declaration) :
    Except Fault Report :=
  match declaration.findings config tokens with
  | .ok findings =>
      .ok
        { findings := findings.map Finding.located
          warnings := [] }
  | .error (.unreadable error) =>
      .ok
        { findings := [.ofError error]
          warnings := [⟨declaration.start, error⟩] }
  | .error fault => .error fault

end Declaration

/-- How far an audit came: its report, and the fault that ended it, if one did. -/
structure Audit where
  report : Report
  fault? : Option Fault
  deriving Repr, DecidableEq

namespace Audit

/-- The audit of no declaration. -/
def empty : Audit where
  report := .empty
  fault? := none

/-- Put the report about an earlier declaration in front. -/
def after
    (audit : Audit)
    (report : Report) :
    Audit :=
  { audit with report := report ++ audit.report }

/-- The findings of an audit that came to its end. -/
def findings (audit : Audit) : Except Fault (List Finding) :=
  match audit.fault? with
  | some fault => .error fault
  | none => .ok audit.report.findings

/-- Audit the declarations of a file in order. -/
def ofDeclarations
    (config : Config)
    (tokens : List Token) :
    List Declaration → Audit
  | [] => .empty
  | declaration :: rest =>
      match declaration.report config tokens with
      | .error fault => { report := .empty, fault? := some fault }
      | .ok report => (ofDeclarations config tokens rest).after report

/-- Audit one declaration. -/
def ofDeclaration
    (config : Config)
    (tokens : List Token)
    (declaration : Declaration) :
    Audit :=
  ofDeclarations config tokens [declaration]

end Audit

end DocAudit
