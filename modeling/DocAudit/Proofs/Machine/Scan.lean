import DocAudit.Machine.Scan

namespace DocAudit

/-!
# Answers of scans

The answer of a scan unfolds item by item: the first fault wins, and after the
last item a closing step has its say. An induction over the items needs no more
than the equations below.
-/

/-- A view of an answer is an answer exactly when there was one to view. -/
theorem map_eq_ok_iff
    {answer : Except φ α}
    {view : α → β}
    {viewed : β} :
    answer.map view = .ok viewed ↔ ∃ value, answer = .ok value ∧ view value = viewed := by
  cases answer <;> simp [Except.map]

theorem map_eq_error_iff
    {answer : Except φ α}
    {view : α → β}
    {fault : φ} :
    answer.map view = .error fault ↔ answer = .error fault := by
  cases answer <;> simp [Except.map]

/-- Two answers are alike when they are the same fault, or values that are related. -/
inductive Alike (related : α → β → Prop) : Except φ α → Except φ β → Prop where
  | ok
      {value : α}
      {other : β} :
      related value other →
      Alike related (.ok value) (.ok other)
  | error
      {fault : φ} :
      Alike related (.error fault) (.error fault)

/-- Alike answers go on alike when related values do. -/
theorem Alike.bind_eq_map
    {related : α → β → Prop}
    {answer : Except φ α}
    {other : Except φ β}
    {follow : α → Except φ γ}
    {followOther : β → Except φ γ}
    {change : γ → γ}
    (alike : Alike related answer other)
    (continues :
      ∀ {value : α} {otherValue : β},
        related value otherValue → followOther otherValue = (follow value).map change) :
    other.bind followOther = (answer.bind follow).map change := by
  cases alike with
  | ok isRelated => exact continues isRelated
  | error => rfl

namespace Machine.Scan

variable
  {step : σ → ι → Except φ σ}
  {last : σ → Except φ σ}
  {view : σ → α}

/-- A scan without fault answers what its closing step answers. -/
theorem outcome_finished (state : σ) :
    ((finished state).andThen last).outcome view = (last state).map view := by
  cases closed : last state with
  | ok final =>
      simp [andThen, finished, outcome, closed, Except.map]
  | error fault =>
      simp [andThen, finished, stopped, outcome, closed, Except.map]

theorem outcome_run_nil (state : σ) :
    ((run step state []).andThen last).outcome view =
      (last state).map view :=
  outcome_finished state

/-- The first item is taken, and its fault wins over all that follows. -/
theorem outcome_run_cons
    (state : σ)
    (item : ι)
    (rest : List ι) :
    ((run step state (item :: rest)).andThen last).outcome view =
      (step state item).bind fun next =>
        ((run step next rest).andThen last).outcome view := by
  cases stepped : step state item with
  | ok next =>
      simp [run, stepped, Except.bind]
  | error fault =>
      simp [run, stepped, stopped, andThen, outcome, Except.bind]

/-- A scan answers exactly when its first step succeeds and the rest answers from there. -/
theorem outcome_run_cons_eq_ok_iff
    {state : σ}
    {item : ι}
    {rest : List ι}
    {answer : α} :
    ((run step state (item :: rest)).andThen last).outcome view = .ok answer ↔
      ∃ next,
        step state item = .ok next ∧
          ((run step next rest).andThen last).outcome view = .ok answer := by
  rw [outcome_run_cons]
  cases stepped : step state item with
  | ok next =>
      simp [Except.bind]
  | error fault =>
      simp [Except.bind]

/-- A scan answers when it goes to its end and its closing step succeeds there. -/
theorem outcome_andThen_eq_ok_iff
    {scan : Scan σ φ}
    {answer : α} :
    (scan.andThen last).outcome view = .ok answer ↔
      ∃ reached final,
        scan = finished reached ∧ last reached = .ok final ∧ view final = answer := by
  rcases scan with ⟨state, fault?⟩
  cases fault? with
  | some fault =>
      simp [andThen, outcome, finished]
  | none =>
      cases closed : last state <;>
        simp [andThen, outcome, finished, stopped, closed]

/-- A scan that answers a fault was stopped by it, or its closing step fails with it. -/
theorem exists_of_outcome_andThen_eq_error
    {scan : Scan σ φ}
    {fault : φ}
    (answers : (scan.andThen last).outcome view = .error fault) :
    ∃ reached,
      scan = stopped reached fault ∨ scan = finished reached ∧ last reached = .error fault := by
  rcases scan with ⟨state, fault?⟩
  refine ⟨state, ?_⟩
  cases fault? with
  | some earlier =>
      cases answers
      exact .inl rfl
  | none =>
      cases closed : last state with
      | ok final => simp [andThen, outcome, finished, closed] at answers
      | error closing =>
          simp only [andThen, outcome, stopped, closed, Except.error.injEq] at answers
          exact .inr ⟨rfl, congrArg Except.error answers⟩

/-- A scan goes to its end when its first step succeeds and the rest goes to its end. -/
theorem run_cons_eq_finished_iff
    {state final : σ}
    {item : ι}
    {rest : List ι} :
    run step state (item :: rest) = finished final ↔
      ∃ next, step state item = .ok next ∧ run step next rest = finished final := by
  cases stepped : step state item with
  | ok next =>
      simp [run, stepped]
  | error fault =>
      simp [run, stepped, stopped, finished]

/-- A scan of two lists in a row goes to its end when both parts do. -/
theorem run_append_eq_finished_iff
    {state final : σ}
    {first second : List ι} :
    run step state (first ++ second) = finished final ↔
      ∃ middle,
        run step state first = finished middle ∧ run step middle second = finished final := by
  induction first generalizing state with
  | nil => simp [run, finished]
  | cons item rest inductionHypothesis =>
      simp only [List.cons_append, run_cons_eq_finished_iff, inductionHypothesis]
      constructor
      · rintro ⟨next, steps, middle, inFront, behind⟩
        exact ⟨middle, ⟨next, steps, inFront⟩, behind⟩
      · rintro ⟨middle, ⟨next, steps, inFront⟩, behind⟩
        exact ⟨next, steps, middle, inFront, behind⟩

/-- An item that fails wherever the items in front of it end stops the scan there. -/
theorem run_append_of_error
    {state : σ}
    {front rest : List ι}
    {item : ι}
    {fault : φ}
    (fails :
      ∀ last, run step state front = finished last → step last item = .error fault) :
    run step state (front ++ item :: rest) =
      (run step state front).andThen fun _ => .error fault := by
  rw [run_append]
  rcases reached : run step state front with ⟨last, fault?⟩
  cases fault? with
  | some earlier => rfl
  | none =>
      have failed := fails last reached
      simp only [run, failed]
      rfl

/-- A scan that is stopped was stopped by one item, where the items in front of it end. -/
theorem exists_of_run_eq_stopped
    {state reached : σ}
    {items : List ι}
    {fault : φ}
    (runs : run step state items = stopped reached fault) :
    ∃ front item back,
      items = front ++ item :: back ∧
        run step state front = finished reached ∧ step reached item = .error fault := by
  induction items generalizing state with
  | nil => cases runs
  | cons item rest inductionHypothesis =>
      cases steps : step state item with
      | error failed =>
          simp only [run, steps] at runs
          cases runs
          exact ⟨[], item, rest, rfl, rfl, steps⟩
      | ok next =>
          simp only [run, steps] at runs
          obtain ⟨front, blamed, back, rfl, reaches, fails⟩ := inductionHypothesis runs
          exact
            ⟨item :: front, blamed, back, rfl,
              run_cons_eq_finished_iff.mpr ⟨next, steps, reaches⟩, fails⟩

/-- Items that change no state can be left out of a scan. -/
theorem run_filter
    {counts : ι → Bool}
    (ignores : ∀ (state : σ) {item : ι}, ¬ counts item = true → step state item = .ok state)
    (state : σ)
    (items : List ι) :
    run step state (items.filter counts) = run step state items := by
  induction items generalizing state with
  | nil => rfl
  | cons item rest inductionHypothesis =>
      by_cases isCounted : counts item = true
      · rw [List.filter_cons_of_pos isCounted]
        simp only [run, inductionHypothesis]
      · rw [List.filter_cons_of_neg isCounted, inductionHypothesis]
        simp only [run, ignores state isCounted]

/-- A scan behind which something fails does not end without fault. -/
theorem andThen_error_ne_finished
    (scan : Scan σ φ)
    (fault : φ)
    (last : σ) :
    (scan.andThen fun _ => .error fault) ≠ finished last := by
  rcases scan with ⟨state, fault?⟩
  cases fault? <;> simp [andThen, stopped, finished]

/-- What holds at the start of a scan and is kept by every step holds where it ends. -/
theorem holds_of_run
    {holds : σ → Prop}
    (keeps :
      ∀ {state next : σ} {item : ι},
        holds state → step state item = .ok next → holds next)
    {state final : σ}
    {items : List ι}
    (atStart : holds state)
    (runs : run step state items = finished final) :
    holds final := by
  induction items generalizing state with
  | nil =>
      cases runs
      exact atStart
  | cons item rest inductionHypothesis =>
      obtain ⟨next, steps, runsOn⟩ := run_cons_eq_finished_iff.mp runs
      exact inductionHypothesis (keeps atStart steps) runsOn

/--
Two scans whose states stay related answer the same up to a change, when their
answers at the end of the items differ by that change.
-/
theorem outcome_eq_map_of_related
    {related : σ → σ → Prop}
    {change : α → α}
    (steps :
      ∀ {alone resumed : σ} (item : ι),
        related alone resumed → Alike related (step alone item) (step resumed item))
    (ends :
      ∀ {alone resumed : σ},
        related alone resumed →
          (last resumed).map view = ((last alone).map view).map change)
    {alone resumed : σ}
    (isRelated : related alone resumed)
    (items : List ι) :
    ((run step resumed items).andThen last).outcome view =
      (((run step alone items).andThen last).outcome view).map change := by
  induction items generalizing alone resumed with
  | nil =>
      rw [outcome_run_nil, outcome_run_nil]
      exact ends isRelated
  | cons item rest inductionHypothesis =>
      rw [outcome_run_cons, outcome_run_cons]
      exact (steps item isRelated).bind_eq_map inductionHypothesis

end Machine.Scan

end DocAudit
