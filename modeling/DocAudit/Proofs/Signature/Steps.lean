import DocAudit.Proofs.Machine.Path
import DocAudit.Proofs.Machine.Scan
import DocAudit.Proofs.Signature.Outcome
import DocAudit.Signature.Parser

namespace DocAudit.Signature

/-!
# What one token does

A token that is taken fires an event, or is counted and appended. The lemmas here
say all that taking a token can do, and all that it can fail with, so that what
every token keeps is proved by cases on them.
-/

/-- Where an event may happen, and where it leads to. -/
theorem of_get?_table
    {phase target : Phase}
    {event : Event}
    (lookup : table.get? (phase, event) = some target) :
    match event with
    | .gotType => phase = .start ∧ target = .awaitingName
    | .gotName => phase ≠ .awaitingDefault ∧ target = .awaitingDefault
    | .gotEquals => phase = .awaitingDefault ∧ target = .awaitingDefault
    | .gotEnd => phase = .awaitingDefault ∧ target = .start := by
  rw [get?_table] at lookup
  cases phase <;> cases event <;> cases lookup <;> simp

/-- What an event changes in the contents of a reader. -/
inductive Changes
    (config : Config)
    (contents : Contents) :
    Event →
    Contents →
    Prop where
  | opensType
      (token : Token) :
      contents.draft.inDefault = false →
      Changes config contents .gotType (contents.openType token)
  | names
      (token : Token) :
      contents.draft.inDefault = false →
      Changes config contents .gotName (contents.setName config token)
  | opensDefault :
      contents.draft.inDefault = false →
      Changes config contents .gotEquals contents.openDefault
  | ends
      {parameter : Parameter} :
      contents.draft.parameter config = .ok parameter →
      Changes config contents .gotEnd
        { contents with
          draft := .blank
          parameters := contents.parameters ++ [parameter] }

/-- A reader goes on to another one by an event. -/
inductive Fires
    (config : Config)
    (reader : Reader) :
    Reader →
    Prop where
  | intro
      {event : Event}
      {target : Phase}
      {contents : Contents} :
      table.get? (reader.state, event) = some target →
      Changes config reader.contents event contents →
      Fires config reader
        { state := target
          moves := reader.moves ++ [⟨event, reader.state, target⟩]
          contents := contents }

/-- Why a reader cannot go on. -/
inductive Halts
    (config : Config)
    (reader : Reader) :
    Fault →
    Prop where
  /-- An event may not happen in the phase of the reader. -/
  | unexpected
      {event : Event} :
      table.get? (reader.state, event) = none →
      Halts config reader
        (.blaming reader.contents.last? fun token =>
          .unexpectedToken token reader.state.name)
  /-- The parameter that is open cannot be closed. -/
  | wrongDefault :
      reader.state = .awaitingDefault →
      reader.contents.draft.hasWrongDefault config = true →
      Halts config reader
        (.blaming reader.contents.draft.defaultTokens.head? fun token =>
          .optionalDefault token reader.contents.draft.defaultText config.nullDefault)

section Tokens

variable
  {config : Config}
  {reader next : Reader}
  {token : Token}
  {fault : Fault}

/-- Only where no default is open does a token fire an event other than the end. -/
theorem Contents.inDefault_of_role
    {contents : Contents}
    (fires :
      contents.role token = .opensType ∨
        contents.role token = .names ∨ contents.role token = .opensDefault) :
    contents.draft.inDefault = false := by
  cases isOpen : contents.draft.inDefault with
  | false => rfl
  | true =>
      unfold role at fires
      split at fires <;> simp [isOpen] at fires
      split at fires <;> simp at fires

/-- A parameter is closed by its end. -/
theorem fires_of_close
    (closes : Reader.close config reader = .ok next) :
    Fires config reader next := by
  obtain ⟨target, contents, lookup, changes, rfl⟩ :=
    Machine.Situation.fire_eq_ok closes
  obtain ⟨parameter, made, rfl⟩ := map_eq_ok_iff.mp changes
  exact .intro lookup (.ends made)

theorem halts_of_close
    (fails : Reader.close config reader = .error fault) :
    Halts config reader fault := by
  rcases Machine.Situation.fire_eq_error fails with
    ⟨refused, rfl⟩ | ⟨target, lookup, unclosed⟩
  · exact .unexpected refused
  · have isOpen : reader.state = .awaitingDefault := (of_get?_table lookup).1
    have unmade := map_eq_error_iff.mp unclosed
    by_cases wrong : reader.contents.draft.hasWrongDefault config = true
    · rw [Draft.parameter_eq_error wrong] at unmade
      cases unmade
      exact .wrongDefault isOpen wrong
    · rw [Draft.parameter_eq_record (Bool.eq_false_iff.mpr wrong)] at unmade
      cases unmade

/-- An event that changes contents without fault leads along the table. -/
theorem fires_of_fire
    {event : Event}
    {change : Contents → Contents}
    (fired : Reader.fire reader event (fun contents => .ok (change contents)) = .ok next)
    (changes : Changes config reader.contents event (change reader.contents)) :
    Fires config reader next := by
  obtain ⟨target, contents, lookup, changed, rfl⟩ := Machine.Situation.fire_eq_ok fired
  cases changed
  exact .intro lookup changes

/-- A token that is taken fires an event, or continues what is open. -/
theorem fires_of_take
    (takes : Reader.take config reader token = .ok next) :
    Fires config reader next ∨
      next = reader.update fun contents => contents.extend token := by
  unfold Reader.take at takes
  cases role : reader.contents.role token with
  | opensType =>
      have closed := Contents.inDefault_of_role (.inl role)
      rw [role] at takes
      exact .inl (fires_of_fire takes (.opensType token closed))
  | names =>
      have closed := Contents.inDefault_of_role (.inr (.inl role))
      rw [role] at takes
      exact .inl (fires_of_fire takes (.names token closed))
  | opensDefault =>
      have closed := Contents.inDefault_of_role (.inr (.inr role))
      rw [role] at takes
      exact .inl (fires_of_fire takes (.opensDefault closed))
  | ends =>
      rw [role] at takes
      exact .inl (fires_of_close takes)
  | continues =>
      rw [role] at takes
      cases takes
      exact .inr rfl

/-- An event that changes contents without fault halts a reader only where it may not happen. -/
theorem halts_of_fire
    {event : Event}
    {change : Contents → Contents}
    (fails :
      Reader.fire reader event (fun contents => .ok (change contents)) = .error fault) :
    Halts config reader fault := by
  rcases Machine.Situation.fire_eq_error fails with ⟨refused, rfl⟩ | ⟨_, _, changed⟩
  · exact .unexpected refused
  · cases changed

theorem halts_of_take
    (fails : Reader.take config reader token = .error fault) :
    Halts config reader fault := by
  unfold Reader.take at fails
  split at fails
  · exact halts_of_fire fails
  · exact halts_of_fire fails
  · exact halts_of_fire fails
  · exact halts_of_close fails
  · cases fails

end Tokens

end DocAudit.Signature
