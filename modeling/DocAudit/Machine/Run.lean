import DocAudit.Machine.Scan
import DocAudit.Machine.Situation

namespace DocAudit.Machine

/-!
# Runs

A run is what reading a list of items leaves behind for others to see: the
records or the fault, the state in which the machine stopped, and its moves.
-/

/-- The visible part of reading a list of items. -/
structure Run (σ ε φ α : Type) where
  outcome : Except φ (List α)
  state : σ
  moves : List (Move σ ε)

namespace Run

/-- The run of a scan whose last situation holds the records. -/
def ofScan
    (scan : Scan (Situation σ ε δ) φ)
    (records : δ → List α) :
    Run σ ε φ α where
  outcome := scan.outcome fun situation => records situation.contents
  state := scan.state.state
  moves := scan.state.moves

/--
The lines that report a run: one for each move, and at a successful end the
number of records.
-/
def log
    (eventName : ε → String)
    (stateName : σ → String)
    (recordNoun : String)
    (run : Run σ ε φ α) :
    List String :=
  run.moves.map (Move.line eventName stateName) ++
    match run.outcome with
    | .ok records => [s!"Parsed {records.length} {recordNoun}"]
    | .error _ => []

end Run

end DocAudit.Machine
