import DocAudit.Limit
import DocAudit.Text.CodePoints
import DocAudit.Text.Blank
import DocAudit.Text.Printable
import DocAudit.Text.DecimalDigit
import DocAudit.Text.Integer
import DocAudit.Text.Quoted
import DocAudit.Text.Indent
import DocAudit.Text.Occurrence
import DocAudit.OrderedMap
import DocAudit.Machine.Move
import DocAudit.Machine.Situation
import DocAudit.Machine.Scan
import DocAudit.Machine.Blueprint
import DocAudit.Machine.Built
import DocAudit.Machine.Work
import DocAudit.Token
import DocAudit.Nesting
import DocAudit.Parameter
import DocAudit.ParameterDoc
import DocAudit.Config
import DocAudit.ParseError
import DocAudit.Fault
import DocAudit.Machine.Run
import DocAudit.Machine.Parser
import DocAudit.Machine.InPlace
import DocAudit.Header
import DocAudit.CommentLine
import DocAudit.Signature.Phase
import DocAudit.Signature.Draft
import DocAudit.Signature.Reader
import DocAudit.Signature.Parser
import DocAudit.Signature.Worker
import DocAudit.DocBlock.Phase
import DocAudit.DocBlock.Draft
import DocAudit.DocBlock.Reader
import DocAudit.DocBlock.Parser
import DocAudit.DocBlock.Worker
import DocAudit.Finding
import DocAudit.Agreement
import DocAudit.Declaration
import DocAudit.Audit
import DocAudit.Proofs.Machine.Scan
import DocAudit.Proofs.Machine.Path
import DocAudit.Proofs.Machine.InPlace
import DocAudit.Proofs.Machine.Chain
import DocAudit.Proofs.Machine.Work
import DocAudit.Proofs.Machine.Firing
import DocAudit.Proofs.Machine.Soundness
import DocAudit.Proofs.Machine.Lockstep
import DocAudit.Proofs.Machine.Run
import DocAudit.Proofs.Signature.Placement
import DocAudit.Proofs.Signature.Grammar
import DocAudit.Proofs.Signature.Fragment
import DocAudit.Proofs.Signature.Derivation
import DocAudit.Proofs.Signature.Outcome
import DocAudit.Proofs.Signature.Tracking
import DocAudit.Proofs.Signature.Acceptance
import DocAudit.Proofs.Signature.Accounting
import DocAudit.Proofs.DocBlock.Names
import DocAudit.Proofs.Agreement.Findings
import DocAudit.Proofs.Agreement.Mismatch
import DocAudit.Proofs.Declaration.ClosingBlock
import DocAudit.Proofs.Audit.Clean
import DocAudit.Proofs.DocBlock.Ownership
import DocAudit.Proofs.DocBlock.Standing
import DocAudit.Proofs.DocBlock.Acceptance
import DocAudit.Proofs.Text.Trim
import DocAudit.Proofs.Text.Literal
import DocAudit.Proofs.Config.Environment
import DocAudit.Proofs.DocBlock.Layout
import DocAudit.Proofs.Audit.Documented
import DocAudit.Proofs.DocBlock.DocumentationLines
import DocAudit.Proofs.DocBlock.Pattern
import DocAudit.Proofs.DocBlock.WellLaid
import DocAudit.Proofs.Header.Markers
import DocAudit.Proofs.DocBlock.Verdict
import DocAudit.Proofs.DocBlock.Sections
import DocAudit.Proofs.DocBlock.Precedence
import DocAudit.Proofs.Signature.Composition
import DocAudit.Proofs.DocBlock.Composition
import DocAudit.Proofs.DocBlock.Accounting
import DocAudit.Proofs.DocBlock.Safety
import DocAudit.Proofs.Signature.Safety
import DocAudit.Proofs.Signature.Viability
import DocAudit.Proofs.Signature.Steps
import DocAudit.Proofs.Signature.Trace
import DocAudit.Proofs.Signature.Layout
import DocAudit.Proofs.DocBlock.Trace
import DocAudit.Proofs.DocBlock.Paragraph
import DocAudit.Proofs.DocBlock.Growth
import DocAudit.Proofs.DocBlock.Described
import DocAudit.Proofs.Signature.Worker
import DocAudit.Proofs.Signature.Coherence
import DocAudit.Proofs.DocBlock.Worker
import DocAudit.Proofs.DocBlock.WorkerSafety
import DocAudit.Proofs.Audit.Reports
import DocAudit.Proofs.Audit.Faithful
import DocAudit.Proofs.Audit.Concatenation
import DocAudit.Proofs.Audit.Reuse
import DocAudit.Proofs.Text.Indent
import DocAudit.Proofs.CommentLine.Description
import DocAudit.Proofs.Header.Reading
import DocAudit.Proofs.Agreement.Surplus
import DocAudit.Proofs.CommentLine.Verdict
