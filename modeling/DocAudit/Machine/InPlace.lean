import DocAudit.Machine.Scan
import DocAudit.Machine.Situation

namespace DocAudit.Machine

/-!
# Working in place

A procedure that works in place overwrites what it holds, step by step. When a fault
stops it, what it has changed so far stays changed, so a failed procedure may leave
half of its work behind. It ends in a scan: what it holds, and the fault, if there is
one.
-/

namespace Scan

/-- Where a step leads from a state, in which it stays when it fails. -/
def attempt
    (state : σ) :
    Except φ σ → Scan σ φ
  | .ok next => finished next
  | .error fault => stopped state fault

/-- Go on with a procedure where the scan ended, unless a fault stopped it. -/
def follow
    (scan : Scan σ φ)
    (procedure : σ → Scan σ φ) :
    Scan σ φ :=
  match scan.fault? with
  | some _ => scan
  | none => procedure scan.state

/-- Carry out a procedure for one item after the other. -/
def sweep
    (procedure : σ → ι → Scan σ φ)
    (state : σ) :
    List ι → Scan σ φ
  | [] => finished state
  | item :: rest =>
      (procedure state item).follow fun next => sweep procedure next rest

end Scan

namespace Situation

/-- Carry out a procedure on the contents without moving. -/
def carryOut
    (situation : Situation σ ε δ)
    (procedure : δ → Scan δ φ) :
    Scan (Situation σ ε δ) φ :=
  let carried := procedure situation.contents
  { state := { situation with contents := carried.state }
    fault? := carried.fault? }

/-- Move to a state by an event. -/
def moveTo
    (situation : Situation σ ε δ)
    (event : ε)
    (target : σ) :
    Situation σ ε δ :=
  { situation with
    state := target
    moves := situation.moves ++ [⟨event, situation.state, target⟩] }

/--
Fire an event in place. The target is looked up first and moved to last, so a
procedure that fails prevents the move, and only the move.
-/
def fireInPlace
    [DecidableEq σ]
    [DecidableEq ε]
    (situation : Situation σ ε δ)
    (table : Table σ ε)
    (event : ε)
    (refusal : φ)
    (procedure : δ → Scan δ φ) :
    Scan (Situation σ ε δ) φ :=
  match table.get? (situation.state, event) with
  | none => .stopped situation refusal
  | some target =>
      (situation.carryOut procedure).follow fun carried =>
        .finished (carried.moveTo event target)

end Situation

end DocAudit.Machine
