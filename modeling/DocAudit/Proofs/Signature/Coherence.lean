import DocAudit.Proofs.Signature.Tracking
import DocAudit.Proofs.Signature.Worker

namespace DocAudit.Signature

/-!
# Fields in step with the phase

A worker knows in two ways where it is in a parameter list: by its phase, and by the
flags and tokens in its fields. After every token that it has read both say the same,
the fields of a parameter are clear between two parameters, and the nesting depth counts
the brackets of the tokens. So a comma that ends a parameter stands outside all
brackets, and the next parameter begins at depth zero. The main result is
`Worker.fields_keep_step`.
-/

namespace Workspace

/-- The fields of a parameter of which nothing was read. -/
structure Clear (workspace : Workspace) : Prop where
  typeTokens : workspace.typeTokens = []
  defaultTokens : workspace.defaultTokens = []
  name : workspace.name = ""
  declaredType : workspace.declaredType = ""
  optional : workspace.optional = false

/-- What the fields keep to in a phase, at some nesting depth. -/
structure Coherent
    (phase : Phase)
    (depth : Int)
    (workspace : Workspace) :
    Prop where
  inType : workspace.inType = true ↔ phase = .awaitingName
  inDefault : workspace.inDefault = true → phase = .awaitingDefault
  typeTokens : workspace.typeTokens ≠ [] ↔ workspace.inType = true
  defaultTokens : workspace.inDefault = false → workspace.defaultTokens = []
  clear : phase = .start → workspace.Clear
  depth : workspace.nesting.depth = depth

theorem coherent_blank : blank.Coherent .start 0 where
  inType := by decide
  inDefault := nofun
  typeTokens := by decide
  defaultTokens _ := rfl
  clear _ := ⟨rfl, rfl, rfl, rfl, rfl⟩
  depth := rfl

namespace Coherent

variable
  {config : Config}
  {phase : Phase}
  {depth : Int}
  {workspace next : Workspace}

/-- Coherent fields are tidy. -/
theorem tidy (coherent : workspace.Coherent phase depth) : workspace.Tidy phase where
  inType := coherent.inType.mp
  inDefault := coherent.inDefault
  typeTokens isClosed :=
    Decidable.not_not.mp fun nonempty =>
      nomatch isClosed.symm.trans (coherent.typeTokens.mp nonempty)
  defaultTokens := coherent.defaultTokens

theorem note
    (coherent : workspace.Coherent phase depth)
    (token : Token) :
    (workspace.note token).Coherent phase depth where
  inType := coherent.inType
  inDefault := coherent.inDefault
  typeTokens := coherent.typeTokens
  defaultTokens := coherent.defaultTokens
  clear atStart := { coherent.clear atStart with }
  depth := coherent.depth

theorem count
    (coherent : workspace.Coherent phase depth)
    (token : Token) :
    (workspace.count token).Coherent phase (depth + token.kind.depthChange) where
  inType := coherent.inType
  inDefault := coherent.inDefault
  typeTokens := coherent.typeTokens
  defaultTokens := coherent.defaultTokens
  clear atStart := { coherent.clear atStart with }
  depth := congrArg (· + token.kind.depthChange) coherent.depth

/-- A token is appended to what is open, which is never the case at the start. -/
theorem append
    (coherent : workspace.Coherent phase depth)
    (token : Token) :
    (workspace.append token).Coherent phase depth := by
  cases typing : workspace.inType with
  | true =>
      have awaits := coherent.inType.mp typing
      rw [append_of_inType typing]
      refine ⟨?_, coherent.inDefault, ?_, coherent.defaultTokens, ?_, coherent.depth⟩
      · simp [pushType, awaits]
      · simp [pushType]
      · intro atStart
        cases awaits.symm.trans atStart
  | false =>
      cases defaulting : workspace.inDefault with
      | true =>
          have awaits := coherent.inDefault defaulting
          rw [coherent.tidy.append_of_inDefault defaulting]
          refine
            ⟨coherent.inType, coherent.inDefault, coherent.typeTokens, ?_, ?_, coherent.depth⟩
          · intro isClosed
            cases defaulting.symm.trans isClosed
          · intro atStart
            cases awaits.symm.trans atStart
      | false =>
          simp only [Workspace.append, typing, defaulting, Bool.false_eq_true, if_false]
          exact coherent

/-- A first word opens the type. -/
theorem openType
    (coherent : workspace.Coherent .start depth)
    (token : Token) :
    (workspace.pushType token).Coherent .awaitingName depth where
  inType := by simp [pushType]
  inDefault isOpen := nomatch coherent.inDefault isOpen
  typeTokens := by simp [pushType]
  defaultTokens := coherent.defaultTokens
  clear := nofun
  depth := coherent.depth

/-- A name closes the type. -/
theorem setName
    (coherent : workspace.Coherent phase depth)
    (token : Token) :
    (workspace.setName config token).Coherent .awaitingDefault depth where
  inType := by simp [Workspace.setName]
  inDefault _ := rfl
  typeTokens := by simp [Workspace.setName]
  defaultTokens := coherent.defaultTokens
  clear := nofun
  depth := coherent.depth

/-- An equals sign opens the default. -/
theorem openDefault
    (coherent : workspace.Coherent .awaitingDefault depth) :
    workspace.openDefault.Coherent .awaitingDefault depth where
  inType := coherent.inType
  inDefault _ := rfl
  typeTokens := coherent.typeTokens
  defaultTokens := nofun
  clear := nofun
  depth := coherent.depth

/-- The end of a parameter clears its fields and leaves the depth as it is. -/
theorem close
    (coherent : workspace.Coherent phase depth)
    (closes : workspace.close config = .finished next) :
    next.Coherent .start depth := by
  unfold Workspace.close at closes
  cases made : workspace.ending.parameter config with
  | error fault =>
      rw [made] at closes
      cases closes
  | ok parameter =>
      rw [made] at closes
      cases closes
      exact
        { inType := by simp [nextParameter]
          inDefault := nofun
          typeTokens := by simp [nextParameter]
          defaultTokens := fun _ => rfl
          clear := fun _ => ⟨rfl, rfl, rfl, rfl, rfl⟩
          depth := coherent.depth }

end Coherent

end Workspace

section Roles

variable
  {contents : Contents}
  {token : Token}

/-- A token that does not continue what is open is no bracket. -/
theorem Contents.depthChange_of_role
    (fires : contents.role token ≠ .continues) :
    token.kind.depthChange = 0 := by
  unfold role at fires
  split at fires <;> simp_all [Token.Kind.depthChange]

/-- A comma continues what is open, or it ends the parameter at depth zero. -/
theorem Contents.role_of_comma
    (separates : token.kind = .comma) :
    contents.role token = .continues ∨
      contents.role token = .ends ∧ contents.nesting.depth = 0 := by
  simp only [role, separates]
  split
  · exact .inl rfl
  · rename_i free
    refine .inr ⟨rfl, ?_⟩
    simp only [Nesting.isNested, Bool.or_eq_true, decide_eq_true_eq, not_or] at free
    exact Decidable.not_not.mp free.2

end Roles

namespace Worker

variable
  {config : Config}
  {worker next last : Worker}
  {depth : Int}
  {token : Token}
  {tokens : List Token}

/-- The reader that a worker amounts to. -/
def reader (worker : Worker) : Reader where
  state := worker.state
  moves := worker.moves
  contents := worker.contents.contents

theorem follows_reader
    (tidy : worker.contents.Tidy worker.state) :
    Follows worker.reader worker where
  state := rfl
  moves := rfl
  contents := ⟨tidy, rfl⟩

/-- The fields are in step with the phase at some nesting depth. -/
abbrev Coherent (worker : Worker) (depth : Int) : Prop :=
  worker.contents.Coherent worker.state depth

/-- A fired event keeps the fields in step when its handler does wherever it leads to. -/
theorem coherent_of_fire
    {event : Event}
    {procedure : Workspace → Machine.Scan Workspace Fault}
    (fired : fire worker event procedure = .finished next)
    (changes :
      ∀ target contents,
        table.get? (worker.state, event) = some target →
          procedure worker.contents = .finished contents →
            contents.Coherent target depth) :
    next.Coherent depth := by
  obtain ⟨target, contents, lookup, changed, rfl⟩ :=
    Machine.Situation.fireInPlace_eq_finished fired
  exact changes target contents lookup changed

/-- The end of a parameter. -/
theorem Coherent.close
    (coherent : worker.Coherent depth)
    (closes : close config worker = .finished next) :
    next.Coherent depth :=
  coherent_of_fire closes fun target contents lookup closed => by
    obtain ⟨_, rfl⟩ := of_get?_table lookup
    exact Workspace.Coherent.close coherent closed

/-- A token that is taken counts into the depth and keeps the fields in step. -/
theorem Coherent.take
    (coherent : worker.Coherent depth)
    (takes : take config worker token = .finished next) :
    next.Coherent (depth + token.kind.depthChange) := by
  have flat (fires : worker.reader.contents.role token ≠ .continues) :
      depth + token.kind.depthChange = depth := by
    rw [Contents.depthChange_of_role fires, Int.add_zero]
  rw [take_eq (follows_reader coherent.tidy)] at takes
  cases role : worker.reader.contents.role token with
  | continues =>
      rw [role] at takes
      cases takes
      exact (coherent.count token).append token
  | opensType =>
      rw [role] at takes
      rw [flat (by simp [role])]
      refine coherent_of_fire takes fun target contents lookup changed => ?_
      obtain ⟨atStart, rfl⟩ := of_get?_table lookup
      cases changed
      rw [Coherent, atStart] at coherent
      exact coherent.openType token
  | names =>
      rw [role] at takes
      rw [flat (by simp [role])]
      refine coherent_of_fire takes fun target contents lookup changed => ?_
      obtain ⟨_, rfl⟩ := of_get?_table lookup
      cases changed
      exact coherent.setName token
  | opensDefault =>
      rw [role] at takes
      rw [flat (by simp [role])]
      refine coherent_of_fire takes fun target contents lookup changed => ?_
      obtain ⟨awaits, rfl⟩ := of_get?_table lookup
      cases changed
      rw [Coherent, awaits] at coherent
      exact coherent.openDefault
  | ends =>
      rw [role] at takes
      rw [flat (by simp [role])]
      exact coherent.close takes

/-- A token that is read counts into the depth and keeps the fields in step. -/
theorem Coherent.step
    (coherent : worker.Coherent depth)
    (steps : step config worker token = .finished next) :
    next.Coherent (depth + token.kind.depthChange) := by
  unfold Worker.step at steps
  split at steps
  · have noted : Coherent (worker.update fun workspace => workspace.note token) depth :=
      coherent.note token
    exact noted.take steps
  · rename_i layout
    cases steps
    rwa [depthChange_of_not_significant layout, Int.add_zero]

/-- After all tokens that were read the fields are in step, at the depth of these tokens. -/
theorem Coherent.sweep
    (coherent : worker.Coherent depth)
    (reads : Machine.Scan.sweep (Worker.step config) worker tokens = .finished last) :
    last.Coherent (depth + netOpened tokens) := by
  induction tokens generalizing worker depth with
  | nil =>
      cases reads
      simpa [netOpened] using coherent
  | cons token rest inductionHypothesis =>
      obtain ⟨next, steps, readsOn⟩ := Machine.Scan.sweep_cons_eq_finished_iff.mp reads
      rw [netOpened_cons, ← Int.add_assoc]
      exact inductionHypothesis (coherent.step steps) readsOn

/-- A token fires the end of the parameter, which may succeed or fail. -/
def FiresEnd
    (config : Config)
    (worker : Worker)
    (token : Token) :
    Prop :=
  step config worker token = close config (worker.update fun workspace => workspace.note token)

/-- The end of a parameter leads back to the start. -/
theorem state_of_close
    (closes : close config worker = .finished next) :
    next.state = .start := by
  obtain ⟨target, contents, lookup, _, rfl⟩ :=
    Machine.Situation.fireInPlace_eq_finished closes
  exact (of_get?_table lookup).2

/-- The end of a parameter is a move. -/
theorem moves_of_close
    (closes : close config worker = .finished next) :
    next.moves ≠ worker.moves := by
  obtain ⟨target, contents, _, _, rfl⟩ :=
    Machine.Situation.fireInPlace_eq_finished closes
  simp

/-- A comma moves nothing, or it fires the end of the parameter at depth zero. -/
theorem step_of_comma
    (config : Config)
    (coherent : worker.Coherent depth)
    (separates : token.kind = .comma) :
    (∃ next, step config worker token = .finished next ∧ next.moves = worker.moves) ∨
      FiresEnd config worker token ∧ depth = 0 := by
  have significant : token.isSignificant = true := by
    simp [Token.isSignificant, separates, Token.Kind.isSignificant, Token.Kind.isLayout]
  have noted : Coherent (worker.update fun workspace => workspace.note token) depth :=
    coherent.note token
  have takes :
      take config (worker.update fun workspace => workspace.note token) token = _ :=
    take_eq (follows_reader noted.tidy) token
  rcases Contents.role_of_comma separates with continues | ⟨ends, flat⟩
  · rw [continues] at takes
    left
    rw [step, if_pos significant, takes]
    exact ⟨_, rfl, rfl⟩
  · rw [ends] at takes
    right
    refine ⟨?_, ?_⟩
    · rw [FiresEnd, step, if_pos significant, takes]
    · rw [← coherent.depth]
      exact flat

/--
After any tokens that a worker has read, its fields are in step with its phase, and its
nesting depth is the number of opening less the number of closing tokens among them. A
comma that comes next fires the end of a parameter at depth zero only, so that the next
parameter begins there, or it fires nothing.
-/
theorem fields_keep_step
    (reads : Machine.Scan.sweep (step config) start tokens = .finished worker) :
    worker.contents.Coherent worker.state (netOpened tokens) ∧
      ∀ comma : Token,
        comma.kind = .comma →
          (FiresEnd config worker comma →
            worker.contents.nesting.depth = 0 ∧
              ∀ next,
                step config worker comma = .finished next →
                  next.state = .start ∧ next.contents.nesting.depth = 0) ∧
            (¬ FiresEnd config worker comma →
              ∃ next, step config worker comma = .finished next ∧ next.moves = worker.moves) := by
  have coherent : worker.Coherent (netOpened tokens) := by
    simpa using Coherent.sweep Workspace.coherent_blank reads
  refine ⟨coherent, fun comma separates => ⟨?_, ?_⟩⟩
  · intro fires
    rcases step_of_comma config coherent separates with
      ⟨next, steps, unmoved⟩ | ⟨_, flat⟩
    · exact (moves_of_close (fires.symm.trans steps) unmoved).elim
    · rw [flat] at coherent
      refine ⟨coherent.depth, fun next steps => ?_⟩
      have closes := fires.symm.trans steps
      exact ⟨state_of_close closes, (Coherent.close (coherent.note comma) closes).depth⟩
  · intro silent
    exact (step_of_comma config coherent separates).resolve_right fun fires => silent fires.1

/-- Stray brackets, and a parameter with commas inside brackets in its type and default. -/
def bracketList : List Token :=
  [⟨.closeBrace, "\x7d", .first⟩, ⟨.openBracket, "[", .first⟩,
    ⟨.typeWord, "Array", .first⟩, ⟨.openBracket, "[", .first⟩, ⟨.typeWord, "Port", .first⟩,
    ⟨.comma, ",", .first⟩, ⟨.other, "1", .first⟩, ⟨.closeBracket, "]", .first⟩,
    ⟨.parameterName, "$ports", .first⟩, ⟨.equals, "=", .first⟩,
    ⟨.openBrace, "\x7b", .first⟩, ⟨.other, "80", .first⟩, ⟨.comma, ",", .first⟩,
    ⟨.closeBracket, "]", .first⟩]

/-- The comma behind the list ends the parameter, and the next one begins at depth zero. -/
theorem fields_keep_step_bracketList :
    ∃ worker next,
      Machine.Scan.sweep (step .standard) start bracketList = .finished worker ∧
        worker.state = .awaitingDefault ∧
        FiresEnd .standard worker ⟨.comma, ",", .first⟩ ∧
        step .standard worker ⟨.comma, ",", .first⟩ = .finished next ∧
        worker.contents.Coherent worker.state (netOpened bracketList) ∧
        next.state = .start ∧ next.contents.nesting.depth = 0 := by
  have reads :
      Machine.Scan.sweep (step .standard) start bracketList =
        .finished (Machine.Scan.sweep (step .standard) start bracketList).state :=
    rfl
  obtain ⟨coherent, commas⟩ := fields_keep_step reads
  obtain ⟨_, begins⟩ := (commas ⟨.comma, ",", .first⟩ rfl).1 rfl
  exact ⟨_, _, reads, rfl, rfl, rfl, coherent, begins _ rfl⟩

end Worker

end DocAudit.Signature
