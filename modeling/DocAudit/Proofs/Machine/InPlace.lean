import DocAudit.Machine.InPlace
import DocAudit.Machine.Run

namespace DocAudit.Machine

/-!
# Working in place, and all at once

A machine that changes its contents all at once can be followed by one that works in
place. After every step that succeeds, the contents of the second hold what those of
the first do. After a failure, all that can be said is that both stand in the same
state after the same moves, and that is all that the run of a stopped machine shows.
-/

namespace Scan

/--
Two scans that end in related states, or are stopped by one fault in states that
stand together.
-/
inductive Agrees
    (related stands : σ → τ → Prop) :
    Scan σ φ →
    Scan τ φ →
    Prop where
  | finished
      {one : σ}
      {other : τ} :
      related one other →
      Agrees related stands (.finished one) (.finished other)
  | stopped
      {one : σ}
      {other : τ}
      {fault : φ} :
      stands one other →
      Agrees related stands (.stopped one fault) (.stopped other fault)

/-- What agrees with a finished scan is finished in a related state. -/
theorem exists_of_agrees_finished
    {related stands : σ → τ → Prop}
    {one : σ}
    {scan : Scan τ φ}
    (agrees : Agrees related stands (.finished one) scan) :
    ∃ other, scan = .finished other ∧ related one other := by
  cases agrees with
  | finished isRelated => exact ⟨_, rfl, isRelated⟩

/-- What agrees with a stopped scan was stopped by the same fault. -/
theorem exists_of_agrees_stopped
    {related stands : σ → τ → Prop}
    {one : σ}
    {fault : φ}
    {scan : Scan τ φ}
    (agrees : Agrees related stands (.stopped one fault) scan) :
    ∃ other, scan = .stopped other fault ∧ stands one other := by
  cases agrees with
  | stopped standing => exact ⟨_, rfl, standing⟩

/-- What a finished scan agrees with has finished in a related state. -/
theorem exists_of_agrees_with_finished
    {related stands : σ → τ → Prop}
    {other : τ}
    {scan : Scan σ φ}
    (agrees : Agrees related stands scan (.finished other)) :
    ∃ one, scan = .finished one ∧ related one other := by
  generalize ends : Scan.finished other = otherScan at agrees
  cases agrees with
  | finished isRelated =>
      cases ends
      exact ⟨_, rfl, isRelated⟩
  | stopped standing => cases ends

/-- Scans that agree go on in agreement when procedures lead related states there. -/
theorem Agrees.follow
    {related ends stands : σ → τ → Prop}
    {scan : Scan σ φ}
    {otherScan : Scan τ φ}
    {procedure : σ → Scan σ φ}
    {otherProcedure : τ → Scan τ φ}
    (agrees : Agrees related stands scan otherScan)
    (continues :
      ∀ {one : σ} {other : τ},
        related one other → Agrees ends stands (procedure one) (otherProcedure other)) :
    Agrees ends stands (scan.follow procedure) (otherScan.follow otherProcedure) := by
  cases agrees with
  | finished isRelated => exact continues isRelated
  | stopped standing => exact .stopped standing

/-- A step that fails may leave off elsewhere, if that stands together as well. -/
theorem Agrees.leaveOff
    {related stands : σ → τ → Prop}
    {here there : σ}
    {answer : Except φ σ}
    {scan : Scan τ φ}
    (agrees : Agrees related stands (.attempt here answer) scan)
    (standsThere : ∀ other, stands here other → stands there other) :
    Agrees related stands (.attempt there answer) scan := by
  cases answer with
  | ok next => exact agrees
  | error fault =>
      obtain ⟨other, rfl, standing⟩ := exists_of_agrees_stopped agrees
      exact .stopped (standsThere other standing)

/-- Procedures that keep two states related for every item do so for a list of items. -/
theorem agrees_sweep
    {related stands : σ → τ → Prop}
    {procedure : σ → ι → Scan σ φ}
    {otherProcedure : τ → ι → Scan τ φ}
    (steps :
      ∀ {one : σ} {other : τ} (item : ι),
        related one other →
          Agrees related stands (procedure one item) (otherProcedure other item))
    {one : σ}
    {other : τ}
    (isRelated : related one other)
    (items : List ι) :
    Agrees related stands (sweep procedure one items) (sweep otherProcedure other items) := by
  induction items generalizing one other with
  | nil => exact .finished isRelated
  | cons item rest inductionHypothesis =>
      exact (steps item isRelated).follow inductionHypothesis

/-- A scan that goes on and finishes had finished before. -/
theorem follow_eq_finished_iff
    {scan : Scan σ φ}
    {procedure : σ → Scan σ φ}
    {last : σ} :
    scan.follow procedure = .finished last ↔
      ∃ next, scan = .finished next ∧ procedure next = .finished last := by
  constructor
  · intro follows
    rcases scan with ⟨next, fault?⟩
    cases fault? with
    | none => exact ⟨next, rfl, follows⟩
    | some fault => cases follows
  · rintro ⟨next, rfl, finishes⟩
    exact finishes

theorem sweep_cons_eq_finished_iff
    {procedure : σ → ι → Scan σ φ}
    {state last : σ}
    {item : ι}
    {rest : List ι} :
    sweep procedure state (item :: rest) = .finished last ↔
      ∃ next, procedure state item = .finished next ∧
        sweep procedure next rest = .finished last :=
  follow_eq_finished_iff

/-- A scan carries out its step for one item after the other. -/
theorem run_eq_sweep
    (step : σ → ι → Except φ σ)
    (state : σ)
    (items : List ι) :
    run step state items =
      sweep (fun state item => attempt state (step state item)) state items := by
  induction items generalizing state with
  | nil => rfl
  | cons item rest inductionHypothesis =>
      cases stepped : step state item with
      | ok next =>
          simp only [run, sweep, stepped]
          exact inductionHypothesis next
      | error fault =>
          simp only [run, sweep, stepped]
          rfl

/-- A closing step follows the scan. -/
theorem andThen_eq_follow
    (scan : Scan σ φ)
    (step : σ → Except φ σ) :
    scan.andThen step = scan.follow fun state => attempt state (step state) := by
  rcases scan with ⟨state, fault?⟩
  cases fault? with
  | some fault => rfl
  | none => cases stepped : step state <;> simp only [andThen, follow, attempt, stepped]

/--
Two scans whose states stay related item by item agree, when their closing steps lead
related states to the same end.
-/
theorem agrees_run_andThen
    {related ends stands : σ → τ → Prop}
    {step : σ → ι → Except φ σ}
    {last : σ → Except φ σ}
    {procedure : τ → ι → Scan τ φ}
    {lastProcedure : τ → Scan τ φ}
    (steps :
      ∀ {one : σ} {other : τ} (item : ι),
        related one other →
          Agrees related stands (attempt one (step one item)) (procedure other item))
    (closes :
      ∀ {one : σ} {other : τ},
        related one other → Agrees ends stands (attempt one (last one)) (lastProcedure other))
    {one : σ}
    {other : τ}
    (isRelated : related one other)
    (items : List ι) :
    Agrees ends stands
      ((run step one items).andThen last)
      ((sweep procedure other items).follow lastProcedure) := by
  rw [run_eq_sweep, andThen_eq_follow]
  exact (agrees_sweep steps isRelated items).follow closes

end Scan

namespace Situation

/-- Two machines that stand in one state after the same moves. -/
structure Abreast
    (one : Situation σ ε δ)
    (other : Situation σ ε γ) :
    Prop where
  state : other.state = one.state
  moves : other.moves = one.moves

/-- Two machines that stand abreast, with contents that correspond in that state. -/
structure Mirrors
    (corresponds : σ → δ → γ → Prop)
    (one : Situation σ ε δ)
    (other : Situation σ ε γ) :
    Prop extends Abreast one other where
  contents : corresponds one.state one.contents other.contents

variable
  {corresponds : σ → δ → γ → Prop}
  {one : Situation σ ε δ}
  {other : Situation σ ε γ}

/-- Two changes that agree on the contents update a machine alike. -/
theorem update_congr
    {situation : Situation σ ε δ}
    {change otherChange : δ → δ}
    (same : change situation.contents = otherChange situation.contents) :
    situation.update change = situation.update otherChange := by
  rw [update, update, same]

/-- Contents that change alike without a move keep two machines in correspondence. -/
theorem Mirrors.update
    {change : δ → δ}
    {otherChange : γ → γ}
    (mirrors : Mirrors corresponds one other)
    (changes : corresponds one.state (change one.contents) (otherChange other.contents)) :
    Mirrors corresponds (one.update change) (other.update otherChange) where
  state := mirrors.state
  moves := mirrors.moves
  contents := changes

/--
An event is fired alike, at once and in place, when in every state that it may lead to
the changed contents correspond, or both changes fail.
-/
theorem Mirrors.agrees_fire
    [DecidableEq σ]
    [DecidableEq ε]
    {table : Table σ ε}
    {event : ε}
    {refusal : φ}
    {change : δ → Except φ δ}
    {procedure : γ → Scan γ φ}
    (mirrors : Mirrors corresponds one other)
    (changes :
      ∀ target,
        table.get? (one.state, event) = some target →
          Scan.Agrees (corresponds target) (fun _ _ => True)
            (.attempt one.contents (change one.contents))
            (procedure other.contents)) :
    Scan.Agrees (Mirrors corresponds) Abreast
      (.attempt one (one.fire table event refusal change))
      (other.fireInPlace table event refusal procedure) := by
  simp only [fire, fireInPlace, mirrors.state]
  cases lookup : table.get? (one.state, event) with
  | none => exact .stopped mirrors.toAbreast
  | some target =>
      cases changed : change one.contents with
      | ok contents =>
          obtain ⟨otherContents, carried, corresponding⟩ :=
            Scan.exists_of_agrees_finished (changed ▸ changes target lookup)
          simp only [carryOut, carried]
          exact
            .finished
              { state := rfl
                moves := by simp only [moveTo, mirrors.moves, mirrors.state]
                contents := corresponding }
      | error fault =>
          -- The contents in place may be changed by now, so only the rest agrees.
          obtain ⟨otherContents, carried, _⟩ :=
            Scan.exists_of_agrees_stopped (changed ▸ changes target lookup)
          simp only [carryOut, carried]
          exact .stopped ⟨mirrors.state, mirrors.moves⟩

/-- An event that is fired in place moves along an entry of the table and changes the contents. -/
theorem fireInPlace_eq_finished
    [DecidableEq σ]
    [DecidableEq ε]
    {table : Table σ ε}
    {event : ε}
    {refusal : φ}
    {procedure : δ → Scan δ φ}
    {situation next : Situation σ ε δ}
    (fired : situation.fireInPlace table event refusal procedure = .finished next) :
    ∃ target contents,
      table.get? (situation.state, event) = some target ∧
        procedure situation.contents = .finished contents ∧
          next =
            { state := target
              moves := situation.moves ++ [⟨event, situation.state, target⟩]
              contents := contents } := by
  unfold fireInPlace at fired
  cases lookup : table.get? (situation.state, event) with
  | none =>
      rw [lookup] at fired
      cases fired
  | some target =>
      rw [lookup] at fired
      obtain ⟨carried, carries, moved⟩ := Scan.follow_eq_finished_iff.mp fired
      cases moved
      rcases changed : procedure situation.contents with ⟨contents, fault?⟩
      rw [carryOut, changed] at carries
      cases carries
      exact ⟨target, contents, rfl, rfl, rfl⟩

/-- What a procedure leaves as it is in the contents, an event that carries it out leaves so. -/
theorem fireInPlace_keeps
    [DecidableEq σ]
    [DecidableEq ε]
    (situation : Situation σ ε δ)
    (table : Table σ ε)
    (event : ε)
    (refusal : φ)
    {procedure : δ → Scan δ φ}
    (view : δ → α)
    (keeps :
      view (procedure situation.contents).state = view situation.contents) :
    view (situation.fireInPlace table event refusal procedure).state.contents =
      view situation.contents := by
  unfold fireInPlace
  cases table.get? (situation.state, event) with
  | none => rfl
  | some target =>
      rcases carried : procedure situation.contents with ⟨contents, fault?⟩
      rw [carried] at keeps
      simp only [carryOut, carried]
      -- Moving on, or stopping, writes nothing into the contents.
      cases fault? <;> exact keeps

/-- Contents that are changed after a move may as well be changed by the handler. -/
theorem fireInPlace_follow_update
    [DecidableEq σ]
    [DecidableEq ε]
    (situation : Situation σ ε δ)
    (table : Table σ ε)
    (event : ε)
    (refusal : φ)
    (change : δ → δ) :
    ((situation.fireInPlace table event refusal .finished).follow fun next =>
        .finished (next.update change)) =
      situation.fireInPlace table event refusal fun contents =>
        .finished (change contents) := by
  unfold fireInPlace
  cases table.get? (situation.state, event) <;> rfl

end Situation

/-- Machines that agree leave the same run behind when they end with the same records. -/
theorem Run.ofScan_eq_of_agrees
    {ends : σ → δ → γ → Prop}
    {scan : Scan (Situation σ ε δ) φ}
    {otherScan : Scan (Situation σ ε γ) φ}
    {records : δ → List α}
    {otherRecords : γ → List α}
    (agrees : Scan.Agrees (Situation.Mirrors ends) Situation.Abreast scan otherScan)
    (sameRecords :
      ∀ {state : σ} {contents : δ} {otherContents : γ},
        ends state contents otherContents → otherRecords otherContents = records contents) :
    Run.ofScan otherScan otherRecords = Run.ofScan scan records := by
  cases agrees with
  | finished mirrors =>
      simp only [ofScan, Scan.outcome, Scan.finished, mirrors.state, mirrors.moves,
        sameRecords mirrors.contents]
  | stopped abreast =>
      simp only [ofScan, Scan.outcome, Scan.stopped, abreast.state, abreast.moves]

end DocAudit.Machine
