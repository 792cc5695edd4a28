namespace DocAudit.Machine

/-!
# Scans

A scan feeds items to a step one after the other and stops at the first fault.
It keeps the last state reached, because a stopped machine still shows where it
stopped.
-/

/-- Where a scan ended, and the fault that stopped it, if one did. -/
structure Scan (σ φ : Type) where
  state : σ
  fault? : Option φ
  deriving Repr, DecidableEq

namespace Scan

/-- A scan that ended without fault. -/
def finished (state : σ) : Scan σ φ where
  state := state
  fault? := none

/-- A scan that a fault stopped in a state. -/
def stopped (state : σ) (fault : φ) : Scan σ φ where
  state := state
  fault? := some fault

/-- Feed items to a step from a state on. -/
def run
    (step : σ → ι → Except φ σ)
    (state : σ) :
    List ι → Scan σ φ
  | [] => finished state
  | item :: rest =>
      match step state item with
      | .ok next => run step next rest
      | .error fault => stopped state fault

/-- Take one more step if the scan ended without fault. -/
def andThen
    (scan : Scan σ φ)
    (step : σ → Except φ σ) :
    Scan σ φ :=
  match scan.fault? with
  | some _ => scan
  | none =>
      match step scan.state with
      | .ok next => finished next
      | .error fault => stopped scan.state fault

/-- What the scan answers: a view of its last state, or its fault. -/
def outcome
    (scan : Scan σ φ)
    (view : σ → α) :
    Except φ α :=
  match scan.fault? with
  | some fault => .error fault
  | none => .ok (view scan.state)

/-- Scanning two lists in a row resumes where the first one ended. -/
theorem run_append
    (step : σ → ι → Except φ σ)
    (state : σ)
    (first second : List ι) :
    run step state (first ++ second) =
      match (run step state first).fault? with
      | some fault => stopped (run step state first).state fault
      | none => run step (run step state first).state second := by
  induction first generalizing state with
  | nil => rfl
  | cons item rest inductionHypothesis =>
      cases stepped : step state item with
      | ok next => simp [run, stepped, inductionHypothesis]
      | error fault => simp [run, stepped, stopped]

end Scan

end DocAudit.Machine
