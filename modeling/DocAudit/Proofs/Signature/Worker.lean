import DocAudit.Proofs.Machine.InPlace
import DocAudit.Proofs.Signature.Steps
import DocAudit.Signature.Worker

namespace DocAudit.Signature

/-!
# Readers and workers

A worker reads a parameter list as a reader does. Its fields amount to what the reader
holds as long as they are tidy: a type is open only while a name is awaited, a default
only while a default is, and what is not open has no tokens. Every step that succeeds
leaves the fields tidy. The main result is `Worker.run_reading`.
-/

namespace Workspace

/-- What the fields amount to: an open type or default holds its tokens. -/
def contents (workspace : Workspace) : Contents where
  nesting := workspace.nesting
  draft :=
    { typeTokens? := if workspace.inType then some workspace.typeTokens else none
      name := workspace.name
      declaredType := workspace.declaredType
      optional := workspace.optional
      defaultTokens? := if workspace.inDefault then some workspace.defaultTokens else none }
  last? := workspace.last?
  parameters := workspace.parameters

@[simp]
theorem inType_contents (workspace : Workspace) :
    workspace.contents.draft.inType = workspace.inType := by
  cases typing : workspace.inType <;> simp [contents, Draft.inType, typing]

@[simp]
theorem inDefault_contents (workspace : Workspace) :
    workspace.contents.draft.inDefault = workspace.inDefault := by
  cases defaulting : workspace.inDefault <;> simp [contents, Draft.inDefault, defaulting]

/-- What the fields of a worker keep to in a phase. -/
structure Tidy
    (phase : Phase)
    (workspace : Workspace) :
    Prop where
  inType : workspace.inType = true → phase = .awaitingName
  inDefault : workspace.inDefault = true → phase = .awaitingDefault
  typeTokens : workspace.inType = false → workspace.typeTokens = []
  defaultTokens : workspace.inDefault = false → workspace.defaultTokens = []

section Fields

variable
  {config : Config}
  {phase target : Phase}
  {workspace : Workspace}

/-- A type and a default are never open at once. -/
theorem Tidy.inType_eq_false
    (tidy : workspace.Tidy phase)
    (isOpen : workspace.inDefault = true) :
    workspace.inType = false := by
  cases typing : workspace.inType with
  | false => rfl
  | true => cases (tidy.inType typing).symm.trans (tidy.inDefault isOpen)

/-- A token that opens and closes nothing leaves the nesting depth as it is. -/
theorem count_of_flat
    {token : Token}
    (flat : token.kind.depthChange = 0) :
    workspace.count token = workspace := by
  rw [count, Nesting.after, flat, Int.add_zero]

/-- While the type is open, a token is appended to the type. -/
theorem append_of_inType
    (isOpen : workspace.inType = true)
    (token : Token) :
    workspace.append token = workspace.pushType token := by
  rw [append, if_pos isOpen]

/-- While the default is open, a token is appended to the default. -/
theorem Tidy.append_of_inDefault
    (tidy : workspace.Tidy phase)
    (isOpen : workspace.inDefault = true)
    (token : Token) :
    workspace.append token = workspace.pushDefault token := by
  simp only [append, tidy.inType_eq_false isOpen, isOpen, if_true, Bool.false_eq_true, if_false]

theorem Tidy.count
    (tidy : workspace.Tidy phase)
    (token : Token) :
    (workspace.count token).Tidy phase :=
  ⟨tidy.inType, tidy.inDefault, tidy.typeTokens, tidy.defaultTokens⟩

/-- A token is appended to what is open only. -/
theorem Tidy.append
    (tidy : workspace.Tidy phase)
    (token : Token) :
    (workspace.append token).Tidy phase := by
  cases typing : workspace.inType with
  | true =>
      rw [append_of_inType typing]
      exact ⟨fun _ => tidy.inType typing, tidy.inDefault, nofun, tidy.defaultTokens⟩
  | false =>
      cases defaulting : workspace.inDefault with
      | true =>
          rw [tidy.append_of_inDefault defaulting]
          exact
            ⟨tidy.inType, tidy.inDefault, tidy.typeTokens,
              fun isClosed => nomatch defaulting.symm.trans isClosed⟩
      | false =>
          simp only [Workspace.append, typing, defaulting, Bool.false_eq_true, if_false]
          exact tidy

/-- What the fields amount to makes the same parameter as the fields. -/
theorem Tidy.parameter_ending
    (tidy : workspace.Tidy phase) :
    workspace.ending.parameter config = workspace.contents.draft.parameter config := by
  have tokens : workspace.contents.draft.defaultTokens = workspace.ending.defaultTokens := by
    cases defaulting : workspace.inDefault with
    | true => simp [contents, ending, Draft.defaultTokens, defaulting]
    | false =>
        simp [contents, ending, Draft.defaultTokens, defaulting, tidy.defaultTokens defaulting]
  have text : workspace.contents.draft.defaultText = workspace.ending.defaultText :=
    congrArg Token.joined tokens
  simp only [Draft.parameter, Draft.hasWrongDefault, Draft.category, text, tokens]
  rfl

end Fields

/-- Tidy fields that amount to the contents of a reader. -/
structure Holds
    (phase : Phase)
    (contents : Contents)
    (workspace : Workspace) :
    Prop where
  tidy : workspace.Tidy phase
  contents_eq : workspace.contents = contents

namespace Holds

variable
  {config : Config}
  {phase : Phase}
  {contents : Contents}
  {workspace : Workspace}

theorem note
    (holds : Holds phase contents workspace)
    (token : Token) :
    Holds phase (contents.note token) (workspace.note token) := by
  obtain ⟨tidy, rfl⟩ := holds
  exact ⟨⟨tidy.inType, tidy.inDefault, tidy.typeTokens, tidy.defaultTokens⟩, rfl⟩

/-- A token is counted and appended to what is open. -/
theorem extend
    (holds : Holds phase contents workspace)
    (token : Token) :
    Holds phase (contents.extend token) ((workspace.count token).append token) := by
  obtain ⟨tidy, rfl⟩ := holds
  refine ⟨(tidy.count token).append token, ?_⟩
  cases typing : workspace.inType <;> cases defaulting : workspace.inDefault <;>
    simp [Workspace.contents, append, count, pushType, pushDefault, Contents.extend,
      Draft.append, typing, defaulting]

/-- A first word opens the type. -/
theorem openType
    (holds : Holds .start contents workspace)
    (defaultClosed : contents.draft.inDefault = false)
    (token : Token) :
    Holds .awaitingName (contents.openType token) (workspace.pushType token) := by
  obtain ⟨tidy, rfl⟩ := holds
  rw [inDefault_contents] at defaultClosed
  have typeClosed : workspace.inType = false := by
    cases typing : workspace.inType with
    | false => rfl
    | true => cases tidy.inType typing
  refine ⟨⟨fun _ => rfl, ?_, ?_, tidy.defaultTokens⟩, ?_⟩
  · intro isOpen
    cases defaultClosed.symm.trans isOpen
  · intro isClosed
    cases isClosed
  · simp [Workspace.contents, pushType, Contents.openType, Draft.openType, defaultClosed,
      tidy.typeTokens typeClosed]

/-- A name closes the type. -/
theorem setName
    (holds : Holds phase contents workspace)
    (defaultClosed : contents.draft.inDefault = false)
    (token : Token) :
    Holds .awaitingDefault
      (contents.setName config token)
      (workspace.setName config token) := by
  obtain ⟨tidy, rfl⟩ := holds
  rw [inDefault_contents] at defaultClosed
  have typeTokens : workspace.contents.draft.typeTokens = workspace.typeTokens := by
    cases typing : workspace.inType with
    | true => simp [Workspace.contents, Draft.typeTokens, typing]
    | false => simp [Workspace.contents, Draft.typeTokens, typing, tidy.typeTokens typing]
  refine ⟨⟨?_, fun _ => rfl, fun _ => rfl, tidy.defaultTokens⟩, ?_⟩
  · intro isOpen
    cases isOpen
  · simp [Contents.setName, Draft.setName, typeTokens]
    simp [Workspace.contents, Workspace.setName, defaultClosed]

/-- An equals sign opens the default. -/
theorem openDefault
    (holds : Holds .awaitingDefault contents workspace)
    (defaultClosed : contents.draft.inDefault = false) :
    Holds .awaitingDefault contents.openDefault workspace.openDefault := by
  obtain ⟨tidy, rfl⟩ := holds
  rw [inDefault_contents] at defaultClosed
  refine ⟨⟨tidy.inType, fun _ => rfl, tidy.typeTokens, ?_⟩, ?_⟩
  · intro isClosed
    cases isClosed
  · simp [Workspace.contents, Workspace.openDefault, Contents.openDefault, Draft.openDefault,
      tidy.defaultTokens defaultClosed]

/-- The end of a parameter turns the fields into a parameter and clears them. -/
theorem close
    (holds : Holds phase contents workspace) :
    Machine.Scan.Agrees (Holds .start) (fun _ _ => True)
      (.attempt contents (contents.close config))
      (workspace.close config) := by
  obtain ⟨tidy, rfl⟩ := holds
  rw [Contents.close, Workspace.close, ← tidy.parameter_ending]
  cases workspace.ending.parameter config with
  | error fault => exact .stopped trivial
  | ok parameter => exact .finished ⟨⟨nofun, nofun, fun _ => rfl, fun _ => rfl⟩, rfl⟩

end Holds

end Workspace

namespace Worker

/-- A worker follows a reader when it stands beside it with fields that hold the contents. -/
abbrev Follows
    (reader : Reader)
    (worker : Worker) :
    Prop :=
  Machine.Situation.Mirrors Workspace.Holds reader worker

/-- Two scans that end in a reader and a worker that follows it, or fail alike. -/
abbrev Agrees
    (scan : Machine.Scan Reader Fault)
    (workerScan : Machine.Scan Worker Fault) :
    Prop :=
  Machine.Scan.Agrees Follows Machine.Situation.Abreast scan workerScan

variable
  {config : Config}
  {reader : Reader}
  {worker : Worker}

/-- An event that both fire is fired alike when the handlers agree wherever it leads to. -/
theorem Follows.agrees_fire
    {event : Event}
    {change : Contents → Except Fault Contents}
    {procedure : Workspace → Machine.Scan Workspace Fault}
    (follows : Follows reader worker)
    (changes :
      ∀ target,
        table.get? (reader.state, event) = some target →
          Machine.Scan.Agrees (Workspace.Holds target) (fun _ _ => True)
            (.attempt reader.contents (change reader.contents))
            (procedure worker.contents)) :
    Agrees
      (.attempt reader (Reader.fire reader event change))
      (fire worker event procedure) := by
  have sameLast : worker.contents.last? = reader.contents.last? :=
    congrArg Contents.last? follows.contents.contents_eq
  rw [fire, sameLast, follows.state]
  exact Machine.Situation.Mirrors.agrees_fire follows changes

/-- The end of a parameter. -/
theorem Follows.agrees_close
    (follows : Follows reader worker) :
    Agrees (.attempt reader (Reader.close config reader)) (close config worker) :=
  follows.agrees_fire fun target lookup => by
    have atStart : target = .start := (of_get?_table lookup).2
    subst atStart
    exact follows.contents.close

/-- A token that is appended to the open type continues what is open. -/
theorem update_pushType
    {token : Token}
    (isOpen : worker.contents.inType = true)
    (flat : token.kind.depthChange = 0) :
    (worker.update fun workspace => workspace.pushType token) =
      worker.update fun workspace => (workspace.count token).append token :=
  Machine.Situation.update_congr
    (by rw [Workspace.count_of_flat flat, Workspace.append_of_inType isOpen])

/-- A token that is appended to the open default continues what is open. -/
theorem update_pushDefault
    {phase : Phase}
    {token : Token}
    (tidy : worker.contents.Tidy phase)
    (isOpen : worker.contents.inDefault = true)
    (flat : token.kind.depthChange = 0) :
    (worker.update fun workspace => workspace.pushDefault token) =
      worker.update fun workspace => (workspace.count token).append token :=
  Machine.Situation.update_congr
    (by rw [Workspace.count_of_flat flat, tidy.append_of_inDefault isOpen])

/-- What taking a token comes to when the fields are tidy. -/
theorem take_eq
    (follows : Follows reader worker)
    (token : Token) :
    take config worker token =
      match reader.contents.role token with
      | .opensType => fire worker .gotType fun workspace => .finished (workspace.pushType token)
      | .names =>
          fire worker .gotName fun workspace => .finished (workspace.setName config token)
      | .opensDefault => fire worker .gotEquals fun workspace => .finished workspace.openDefault
      | .ends => close config worker
      | .continues =>
          .finished (worker.update fun workspace => (workspace.count token).append token) := by
  obtain ⟨tidy, amounts⟩ := follows.contents
  rw [← amounts]
  -- The worker asks for the kind first and for its flags inside, the role the other way.
  cases kind : token.kind with
  | typeWord =>
      have flat : token.kind.depthChange = 0 := by rw [kind]; rfl
      cases defaulting : worker.contents.inDefault with
      | true =>
          simp [take, Contents.role, kind, defaulting, update_pushDefault tidy defaulting flat]
      | false =>
          cases typing : worker.contents.inType with
          | true =>
              simp only [take, Contents.role, kind, defaulting, typing,
                Workspace.inDefault_contents, Workspace.inType_contents, Bool.false_or,
                Bool.false_eq_true, if_true, if_false]
              exact congrArg Machine.Scan.finished (update_pushType typing flat)
          | false =>
              simp only [take, Contents.role, kind, defaulting, typing,
                Workspace.inDefault_contents, Workspace.inType_contents, Bool.false_or,
                Bool.false_eq_true, if_false]
              exact Machine.Situation.fireInPlace_follow_update _ _ _ _ _
  | parameterName =>
      have flat : token.kind.depthChange = 0 := by rw [kind]; rfl
      cases defaulting : worker.contents.inDefault with
      | true =>
          simp [take, Contents.role, kind, defaulting, update_pushDefault tidy defaulting flat]
      | false => simp [take, Contents.role, kind, defaulting]
  | equals =>
      have flat : token.kind.depthChange = 0 := by rw [kind]; rfl
      cases defaulting : worker.contents.inDefault with
      | true =>
          simp [take, Contents.role, kind, defaulting, update_pushDefault tidy defaulting flat]
      | false => simp [take, Contents.role, kind, defaulting]
  | comma =>
      have flat : token.kind.depthChange = 0 := by rw [kind]; rfl
      cases typing : worker.contents.inType with
      | true =>
          simp [take, Contents.role, kind, typing, update_pushType typing flat]
      | false =>
          have sameNesting : worker.contents.contents.nesting = worker.contents.nesting := rfl
          cases nested : worker.contents.nesting.isNested with
          | true =>
              simp [take, Contents.role, kind, typing, sameNesting, nested,
                Machine.Situation.update, Workspace.count_of_flat flat]
          | false => simp [take, Contents.role, kind, typing, sameNesting, nested]
  | _ => simp only [take, Contents.role, kind]

/-- A significant token is taken alike. -/
theorem Follows.agrees_take
    (follows : Follows reader worker)
    (token : Token) :
    Agrees
      (.attempt reader (Reader.take config reader token))
      (take config worker token) := by
  rw [take_eq follows token, Reader.take]
  cases role : reader.contents.role token with
  | opensType =>
      have closed := Contents.inDefault_of_role (.inl role)
      exact follows.agrees_fire fun target lookup => by
        obtain ⟨atStart, rfl⟩ := of_get?_table lookup
        exact .finished ((atStart ▸ follows.contents).openType closed token)
  | names =>
      have closed := Contents.inDefault_of_role (.inr (.inl role))
      exact follows.agrees_fire fun target lookup => by
        obtain ⟨_, rfl⟩ := of_get?_table lookup
        exact .finished (follows.contents.setName closed token)
  | opensDefault =>
      have closed := Contents.inDefault_of_role (.inr (.inr role))
      exact follows.agrees_fire fun target lookup => by
        obtain ⟨waits, rfl⟩ := of_get?_table lookup
        exact .finished ((waits ▸ follows.contents).openDefault closed)
  | ends => exact follows.agrees_close
  | continues => exact .finished (follows.update (follows.contents.extend token))

/-- A token is read alike. -/
theorem Follows.agrees_step
    (follows : Follows reader worker)
    (token : Token) :
    Agrees
      (.attempt reader (Reader.step config reader token))
      (step config worker token) := by
  cases significant : token.isSignificant with
  | true =>
      simp only [Reader.step, Worker.step, significant, if_true]
      have noted :
          Follows
            (reader.update fun contents => contents.note token)
            (worker.update fun workspace => workspace.note token) :=
        follows.update (follows.contents.note token)
      exact
        (noted.agrees_take token).leaveOff fun _ abreast =>
          ⟨abreast.state, abreast.moves⟩
  | false =>
      simp only [Reader.step, Worker.step, significant, Bool.false_eq_true, if_false]
      exact .finished follows

/-- The end of the list is read alike. -/
theorem Follows.agrees_finish
    (follows : Follows reader worker) :
    Agrees (.attempt reader (Reader.finish config reader)) (finish config worker) := by
  by_cases atStart : reader.state = .start
  · simp only [Reader.finish, Worker.finish, follows.state, atStart, if_true]
    exact .finished follows
  · simp only [Reader.finish, Worker.finish, follows.state, atStart, if_false]
    exact follows.agrees_close

/-- A parameter list is read in place as it is read by a reader. -/
theorem agrees_scan
    (config : Config)
    (tokens : List Token) :
    Agrees (Reader.scan config Reader.start tokens) (scan config start tokens) := by
  have atStart : Follows Reader.start start :=
    { state := rfl
      moves := rfl
      contents := ⟨⟨nofun, nofun, fun _ => rfl, fun _ => rfl⟩, rfl⟩ }
  exact
    Machine.Scan.agrees_run_andThen
      (fun token follows => follows.agrees_step token)
      (fun follows => follows.agrees_finish)
      atStart
      tokens

/-- A worker leaves the same run behind as a reader. -/
theorem run_reading (config : Config) :
    (reading config).run = run config :=
  funext fun tokens =>
    Machine.Run.ofScan_eq_of_agrees (agrees_scan config tokens) fun holds =>
      congrArg Contents.parameters holds.contents_eq

end Worker

end DocAudit.Signature
