import DocAudit.Proofs.Signature.Tracking

namespace DocAudit.Signature

/-!
# Which parameter lists can be read

A parameter list can be read exactly when its significant tokens are a word of
the grammar in which every optional item has no default but the null literal.
The parameters are then those that the items describe, in their order.
-/

/-- Layout and comments change nothing in what a reader does. -/
theorem scan_filter
    (config : Config)
    (reader : Reader)
    (tokens : List Token) :
    Reader.scan config reader (tokens.filter Token.isSignificant) =
      Reader.scan config reader tokens := by
  have ignores
      (reader : Reader)
      {token : Token}
      (isLayout : ¬ token.isSignificant = true) :
      Reader.step config reader token = .ok reader :=
    step_of_not_significant isLayout
  rw [Reader.scan, Reader.scan, Machine.Scan.run_filter ignores]

/-- Behind the last token only an open type keeps a reader from coming to an end. -/
theorem outcome_scan_nil_eq_ok_iff
    {config : Config}
    {reader : Reader}
    {fragment : Fragment}
    {depth : Int}
    {found answer : List Parameter}
    (tracks : Tracks config reader fragment depth found) :
    (Reader.scan config reader []).outcome (fun last => last.contents.parameters) =
        .ok answer ↔
      ∃ items,
        Completes fragment [] items ∧
          (∀ item ∈ items, item.Acceptable config) ∧
            answer = found ++ items.map (Item.parameter config) := by
  rw [Reader.scan, Machine.Scan.outcome_run_nil]
  cases fragment with
  | lead words =>
      have phase : reader.state = .start := tracks.phase
      have finished : Reader.finish config reader = .ok reader := by
        rw [Reader.finish, if_pos phase]
      rw [finished, Except.map, tracks.found]
      constructor
      · intro same
        cases same
        exact ⟨[], .filler, by simp, by simp⟩
      · rintro ⟨items, completes, acceptable, rfl⟩
        cases completes
        simp
  | typed front type =>
      have phase : reader.state = .awaitingName := tracks.phase
      rw [Reader.finish, if_neg (by rw [phase]; decide), close_of_typed tracks]
      constructor
      · intro same
        cases same
      · rintro ⟨items, completes, _⟩
        cases completes
  | named item =>
      have phase : reader.state = .awaitingDefault := tracks.phase
      rw [Reader.finish, if_neg (by rw [phase]; decide)]
      by_cases acceptable : item.Acceptable config
      · obtain ⟨after, closed, afterTracks⟩ := close_of_acceptable tracks acceptable
        rw [closed, Except.map, afterTracks.found]
        constructor
        · intro same
          cases same
          exact ⟨[item], .item, by simpa using acceptable, by simp⟩
        · rintro ⟨items, completes, _, rfl⟩
          cases completes
          simp
      · obtain ⟨_, _, _, failed⟩ := close_of_not_acceptable tracks acceptable
        rw [failed]
        constructor
        · intro same
          cases same
        · rintro ⟨items, completes, allAcceptable, _⟩
          cases completes
          exact (acceptable (allAcceptable item (by simp))).elim

/-- Behind an acceptable item and its separator the rest is a list of its own. -/
theorem close_bind_eq_ok_iff
    {config : Config}
    {reader : Reader}
    {item : Item}
    {depth : Int}
    {found answer : List Parameter}
    {rest : List Placed}
    {readOn : Reader → Except Fault (List Parameter)}
    (tracks : Tracks config reader (.named item) depth found)
    (readsOn :
      ∀ {after : Reader},
        Tracks config after .blank depth (found ++ [item.parameter config]) →
          (readOn after = .ok answer ↔
            ∃ items,
              Completes .blank rest items ∧
                (∀ item ∈ items, item.Acceptable config) ∧
                  answer =
                    found ++ [item.parameter config] ++
                      items.map (Item.parameter config))) :
    (Reader.close config reader).bind readOn = .ok answer ↔
      ∃ items,
        (∃ later, items = item :: later ∧ Completes .blank rest later) ∧
          (∀ item ∈ items, item.Acceptable config) ∧
            answer = found ++ items.map (Item.parameter config) := by
  by_cases acceptable : item.Acceptable config
  · obtain ⟨after, closed, afterTracks⟩ := close_of_acceptable tracks acceptable
    rw [closed, Except.bind, readsOn afterTracks]
    constructor
    · rintro ⟨items, completes, allAcceptable, rfl⟩
      exact
        ⟨item :: items, ⟨items, rfl, completes⟩,
          List.forall_mem_cons.mpr ⟨acceptable, allAcceptable⟩, by simp⟩
    · rintro ⟨_, ⟨items, rfl, completes⟩, allAcceptable, rfl⟩
      exact ⟨items, completes, (List.forall_mem_cons.mp allAcceptable).2, by simp⟩
  · obtain ⟨_, _, _, failed⟩ := close_of_not_acceptable tracks acceptable
    rw [failed, Except.bind]
    constructor
    · intro same
      cases same
    · rintro ⟨_, ⟨items, rfl, completes⟩, allAcceptable, _⟩
      exact (acceptable (List.forall_mem_cons.mp allAcceptable).1).elim

/--
A reader comes to an end exactly when the tokens complete the fragment that it
has read with acceptable items, and it then has found their parameters.
-/
theorem outcome_scan_eq_ok_iff
    {config : Config}
    {reader : Reader}
    {fragment : Fragment}
    {depth : Int}
    {found answer : List Parameter}
    {tokens : List Token}
    (tracks : Tracks config reader fragment depth found)
    (significant : ∀ token ∈ tokens, token.isSignificant = true) :
    (Reader.scan config reader tokens).outcome
        (fun last => last.contents.parameters) = .ok answer ↔
      ∃ items,
        Completes fragment (placedFrom depth tokens) items ∧
          (∀ item ∈ items, item.Acceptable config) ∧
            answer = found ++ items.map (Item.parameter config) := by
  induction tokens generalizing reader fragment depth found with
  | nil =>
      exact outcome_scan_nil_eq_ok_iff tracks
  | cons token rest inductionHypothesis =>
      obtain ⟨atHead, inRest⟩ := List.forall_mem_cons.mp significant
      rw [Reader.scan, Machine.Scan.outcome_run_cons, placedFrom]
      simp only [Reader.scan] at inductionHypothesis
      rcases step_cases tracks atHead with
        ⟨longer, after, extended, stepped, afterTracks⟩ |
          ⟨item, rfl, separates, stepped⟩ | ⟨stuck, noEnd, failed⟩
      · rw [stepped, Except.bind]
        simp only [Completes.extend_iff extended]
        exact inductionHypothesis afterTracks inRest
      · simp only [Completes.close_iff separates]
        rw [stepped]
        have level := depthChange_of_letter ⟨token, depth⟩ (by simp [separates])
        simp only [level, Int.add_zero]
        exact
          close_bind_eq_ok_iff (tracks.note token) fun afterTracks =>
            inductionHypothesis afterTracks inRest
      · rw [failed, Except.bind]
        constructor
        · intro same
          cases same
        · rintro ⟨items, completes, _⟩
          exact (completes.not_of_stuck stuck noEnd).elim

theorem parameters_eq_outcome
    (config : Config)
    (tokens : List Token) :
    parameters config tokens =
      (Reader.scan config .start tokens).outcome fun last => last.contents.parameters :=
  rfl

/-- Layout and comments can be left out of a parameter list. -/
theorem parameters_filter
    (config : Config)
    (tokens : List Token) :
    parameters config (tokens.filter Token.isSignificant) = parameters config tokens := by
  rw [parameters_eq_outcome, parameters_eq_outcome, scan_filter]

/--
A parameter list can be read exactly when its significant tokens are a word of
the grammar with acceptable items, whose parameters are the answer.
-/
theorem parameters_eq_ok_iff
    {config : Config}
    {tokens : List Token}
    {answer : List Parameter} :
    parameters config tokens = .ok answer ↔
      ∃ items,
        Listed (placed (tokens.filter Token.isSignificant)) items ∧
          (∀ item ∈ items, item.Acceptable config) ∧
            answer = items.map (Item.parameter config) := by
  have significant :
      ∀ token ∈ tokens.filter Token.isSignificant, token.isSignificant = true :=
    fun _ member => (List.mem_filter.mp member).2
  rw [← parameters_filter, parameters_eq_outcome,
    outcome_scan_eq_ok_iff (tracks_start config) significant, placed_eq_placedFrom]
  simp only [Listed.iff_completes, List.nil_append]

/--
The parameter lists that can be read are the words of the grammar in which every
optional item has no default or the null literal for one.
-/
theorem readable_iff_listed
    (config : Config)
    (tokens : List Token) :
    (∃ answer, parameters config tokens = .ok answer) ↔
      ∃ items,
        Listed (placed (tokens.filter Token.isSignificant)) items ∧
          ∀ item ∈ items, item.Acceptable config := by
  constructor
  · rintro ⟨answer, read⟩
    obtain ⟨items, listed, acceptable, _⟩ := parameters_eq_ok_iff.mp read
    exact ⟨items, listed, acceptable⟩
  · rintro ⟨items, listed, acceptable⟩
    exact
      ⟨items.map (Item.parameter config),
        parameters_eq_ok_iff.mpr ⟨items, listed, acceptable, rfl⟩⟩

end DocAudit.Signature
