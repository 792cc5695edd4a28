import DocAudit.Proofs.Machine.Scan
import DocAudit.Machine.Run

namespace DocAudit.Machine

/-!
# What runs show

A run reads its items to the end and closes there, or a fault stops it at an item or
at the end. It is reported by the lines of its moves, and by a last line when it has
found records. The line of a move begins with the name of its event, so it is not
taken for the last line where the names of events begin otherwise.
-/

namespace Run

variable
  {eventName : ε → String}
  {stateName : σ → String}

/-- How the run of a machine can end that reads items and closes at their end. -/
inductive Ends
    (step : Situation σ ε δ → ι → Except φ (Situation σ ε δ))
    (last : Situation σ ε δ → Except φ (Situation σ ε δ))
    (records : δ → List α)
    (start : Situation σ ε δ)
    (items : List ι) :
    Run σ ε φ α →
    Prop where
  | closed
      {reached final : Situation σ ε δ} :
      Scan.run step start items = .finished reached →
      last reached = .ok final →
      Ends step last records start items
        ⟨.ok (records final.contents), final.state, final.moves⟩
  | stopped
      {front back : List ι}
      {item : ι}
      {reached : Situation σ ε δ}
      {fault : φ} :
      items = front ++ item :: back →
      Scan.run step start front = .finished reached →
      step reached item = .error fault →
      Ends step last records start items ⟨.error fault, reached.state, reached.moves⟩
  | unclosed
      {reached : Situation σ ε δ}
      {fault : φ} :
      Scan.run step start items = .finished reached →
      last reached = .error fault →
      Ends step last records start items ⟨.error fault, reached.state, reached.moves⟩

theorem ends_ofScan
    (step : Situation σ ε δ → ι → Except φ (Situation σ ε δ))
    (last : Situation σ ε δ → Except φ (Situation σ ε δ))
    (records : δ → List α)
    (start : Situation σ ε δ)
    (items : List ι) :
    Ends step last records start items
      (ofScan ((Scan.run step start items).andThen last) records) := by
  rcases scanned : Scan.run step start items with ⟨reached, fault?⟩
  cases fault? with
  | some fault =>
      obtain ⟨front, item, back, split, reads, fails⟩ :=
        Scan.exists_of_run_eq_stopped scanned
      exact .stopped split reads fails
  | none =>
      cases closes : last reached with
      | ok final =>
          simp only [Scan.andThen, closes]
          exact .closed scanned closes
      | error fault =>
          simp only [Scan.andThen, closes]
          exact .unclosed scanned closes

/-- A run that has found records says how many behind the lines of its moves. -/
theorem log_of_ok
    (recordNoun : String)
    (records : List α)
    (state : σ)
    (moves : List (Move σ ε)) :
    log eventName stateName recordNoun (⟨.ok records, state, moves⟩ : Run σ ε φ α) =
      moves.map (Move.line eventName stateName) ++
        ["Parsed " ++ toString records.length ++ (" " ++ recordNoun)] := by
  rw [← String.append_assoc]
  rfl

/-- A run that a fault has stopped is reported by the lines of its moves alone. -/
theorem log_of_error
    (recordNoun : String)
    (fault : φ)
    (state : σ)
    (moves : List (Move σ ε)) :
    log eventName stateName recordNoun (⟨.error fault, state, moves⟩ : Run σ ε φ α) =
      moves.map (Move.line eventName stateName) :=
  List.append_nil _

/-- No line of a move begins as the last line does, when no name of an event does. -/
theorem not_parsed_of_mem_lines
    {moves : List (Move σ ε)}
    {line : String}
    (names : ∀ event, ∃ rest, (eventName event).toList = 'G' :: rest)
    (member : line ∈ moves.map (Move.line eventName stateName)) :
    ¬ "Parsed".toList <+: line.toList := by
  obtain ⟨move, _, rfl⟩ := List.mem_map.mp member
  obtain ⟨rest, name⟩ := names move.event
  simp only [Move.line, String.toList_append]
  change ¬ "Parsed".toList <+: (eventName move.event).toList ++ _ ++ _ ++ _ ++ _
  rw [name]
  rintro ⟨more, same⟩
  cases same

end Run

end DocAudit.Machine
