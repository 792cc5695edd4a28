import DocAudit.Proofs.Machine.InPlace
import Mathlib.Data.List.Forall2

namespace DocAudit

/-!
# Machines in step

Two machines read two lists whose items come in pairs. They go in step when paired
items lead related states to related states, or stop both machines with related
faults. Nothing asks for the same fault on both sides: a fault may show the item that
caused it, and the other machine shows the item that is paired with it.
-/

/-- Two answers in step are related values, or related faults. -/
inductive InStep
    (faults : φ → ψ → Prop)
    (values : α → β → Prop) :
    Except φ α →
    Except ψ β →
    Prop where
  | ok
      {value : α}
      {other : β} :
      values value other →
      InStep faults values (.ok value) (.ok other)
  | error
      {fault : φ}
      {other : ψ} :
      faults fault other →
      InStep faults values (.error fault) (.error other)

/-- Of two answers in step, both are values or both are faults. -/
theorem InStep.cases
    {faults : φ → ψ → Prop}
    {values : α → β → Prop}
    {answer : Except φ α}
    {other : Except ψ β}
    (inStep : InStep faults values answer other) :
    (∃ value otherValue,
        answer = .ok value ∧ other = .ok otherValue ∧ values value otherValue) ∨
      ∃ fault otherFault,
        answer = .error fault ∧ other = .error otherFault ∧ faults fault otherFault := by
  cases inStep with
  | ok related => exact .inl ⟨_, _, rfl, rfl, related⟩
  | error related => exact .inr ⟨_, _, rfl, rfl, related⟩

/-- Answers in step stay in step when related values are viewed alike. -/
theorem InStep.map
    {faults : φ → ψ → Prop}
    {values : α → β → Prop}
    {views : γ → δ → Prop}
    {answer : Except φ α}
    {other : Except ψ β}
    {view : α → γ}
    {otherView : β → δ}
    (inStep : InStep faults values answer other)
    (viewed :
      ∀ {value : α} {otherValue : β},
        values value otherValue → views (view value) (otherView otherValue)) :
    InStep faults views (answer.map view) (other.map otherView) := by
  cases inStep with
  | ok related => exact .ok (viewed related)
  | error related => exact .error related

namespace Machine

namespace Scan

/-- Two scans in step end in related states, and both without fault or with related ones. -/
inductive InStep
    (faults : φ → ψ → Prop)
    (states : σ → τ → Prop) :
    Scan σ φ →
    Scan τ ψ →
    Prop where
  | finished
      {one : σ}
      {other : τ} :
      states one other →
      InStep faults states (.finished one) (.finished other)
  | stopped
      {one : σ}
      {other : τ}
      {fault : φ}
      {otherFault : ψ} :
      states one other →
      faults fault otherFault →
      InStep faults states (.stopped one fault) (.stopped other otherFault)

variable
  {faults : φ → ψ → Prop}
  {states : σ → τ → Prop}
  {step : σ → ι → Except φ σ}
  {otherStep : τ → κ → Except ψ τ}
  {last : σ → Except φ σ}
  {otherLast : τ → Except ψ τ}
  {one : σ}
  {other : τ}

/-- Steps that keep two machines in step item by item do so for lists of paired items. -/
theorem inStep_run
    {paired : ι → κ → Prop}
    (steps :
      ∀ {one : σ} {other : τ} {item : ι} {otherItem : κ},
        states one other →
          paired item otherItem →
            DocAudit.InStep faults states (step one item) (otherStep other otherItem))
    {items : List ι}
    {otherItems : List κ}
    (related : states one other)
    (pairs : List.Forall₂ paired items otherItems) :
    InStep faults states (run step one items) (run otherStep other otherItems) := by
  induction pairs generalizing one other with
  | nil => exact .finished related
  | cons isPair _ inductionHypothesis =>
      rcases (steps related isPair).cases with
        ⟨next, otherNext, stepped, otherStepped, relatedNext⟩ |
          ⟨fault, otherFault, stepped, otherStepped, relatedFaults⟩
      · simp only [run, stepped, otherStepped]
        exact inductionHypothesis relatedNext
      · simp only [run, stepped, otherStepped]
        exact .stopped related relatedFaults

/-- Scans in step stay in step when their closing steps do. -/
theorem InStep.andThen
    {scan : Scan σ φ}
    {otherScan : Scan τ ψ}
    (inStep : InStep faults states scan otherScan)
    (closes :
      ∀ {one : σ} {other : τ},
        states one other →
          DocAudit.InStep faults states (last one) (otherLast other)) :
    InStep faults states (scan.andThen last) (otherScan.andThen otherLast) := by
  cases inStep with
  | stopped related relatedFaults => exact .stopped related relatedFaults
  | finished related =>
      rcases (closes related).cases with
        ⟨next, otherNext, closed, otherClosed, relatedNext⟩ |
          ⟨fault, otherFault, closed, otherClosed, relatedFaults⟩
      · simp only [Scan.andThen, Scan.finished, closed, otherClosed]
        exact .finished relatedNext
      · simp only [Scan.andThen, Scan.finished, closed, otherClosed]
        exact .stopped related relatedFaults

end Scan

namespace Situation

/-- An event is fired in step when it is refused and changes contents in step. -/
theorem Mirrors.inStep_fire
    [DecidableEq σ]
    [DecidableEq ε]
    {faults : φ → ψ → Prop}
    {corresponds : σ → δ → γ → Prop}
    {one : Situation σ ε δ}
    {other : Situation σ ε γ}
    {table : Table σ ε}
    {event : ε}
    {refusal : φ}
    {otherRefusal : ψ}
    {change : δ → Except φ δ}
    {otherChange : γ → Except ψ γ}
    (mirrors : Mirrors corresponds one other)
    (refusals : faults refusal otherRefusal)
    (changes :
      ∀ target,
        table.get? (one.state, event) = some target →
          InStep faults (corresponds target)
            (change one.contents)
            (otherChange other.contents)) :
    InStep faults (Mirrors corresponds)
      (one.fire table event refusal change)
      (other.fire table event otherRefusal otherChange) := by
  simp only [fire, mirrors.state, mirrors.moves]
  cases lookup : table.get? (one.state, event) with
  | none => exact .error refusals
  | some target =>
      rcases (changes target lookup).cases with
        ⟨contents, otherContents, changed, otherChanged, corresponding⟩ |
          ⟨fault, otherFault, changed, otherChanged, relatedFaults⟩
      · simp only [changed, otherChanged]
        exact .ok { state := rfl, moves := rfl, contents := corresponding }
      · simp only [changed, otherChanged]
        exact .error relatedFaults

end Situation

namespace Run

/-- Two runs in step show the same but for the faults, which are related. -/
structure InStep
    (faults : φ → ψ → Prop)
    (run : Run σ ε φ α)
    (other : Run σ ε ψ α) :
    Prop where
  state : other.state = run.state
  moves : other.moves = run.moves
  outcome : DocAudit.InStep faults Eq run.outcome other.outcome

/-- Machines in step leave runs in step behind when they find the same records. -/
theorem inStep_ofScan
    {faults : φ → ψ → Prop}
    {corresponds : σ → δ → γ → Prop}
    {scan : Scan (Situation σ ε δ) φ}
    {otherScan : Scan (Situation σ ε γ) ψ}
    {records : δ → List α}
    {otherRecords : γ → List α}
    (inStep : Scan.InStep faults (Situation.Mirrors corresponds) scan otherScan)
    (sameRecords :
      ∀ {state : σ} {contents : δ} {otherContents : γ},
        corresponds state contents otherContents →
          otherRecords otherContents = records contents) :
    InStep faults (ofScan scan records) (ofScan otherScan otherRecords) := by
  cases inStep with
  | finished mirrors =>
      exact
        { state := mirrors.state
          moves := mirrors.moves
          outcome := .ok (sameRecords mirrors.contents).symm }
  | stopped mirrors relatedFaults =>
      exact
        { state := mirrors.state
          moves := mirrors.moves
          outcome := .error relatedFaults }

/-- Runs in step are reported by the same lines. -/
theorem InStep.log_eq
    {faults : φ → ψ → Prop}
    {run : Run σ ε φ α}
    {other : Run σ ε ψ α}
    (inStep : InStep faults run other)
    (eventName : ε → String)
    (stateName : σ → String)
    (recordNoun : String) :
    other.log eventName stateName recordNoun = run.log eventName stateName recordNoun := by
  obtain ⟨outcome, state, moves⟩ := run
  obtain ⟨otherOutcome, otherState, otherMoves⟩ := other
  obtain ⟨_, sameMoves, outcomes⟩ := inStep
  cases sameMoves
  cases outcomes with
  | ok sameRecords =>
      cases sameRecords
      rfl
  | error _ => rfl

end Run

end Machine

end DocAudit
