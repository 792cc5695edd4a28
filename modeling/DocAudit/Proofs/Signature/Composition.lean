import DocAudit.Proofs.Signature.Acceptance
import DocAudit.Proofs.Signature.Steps

namespace DocAudit.Signature

/-!
# Parameter lists in a row

A reader that is back at its start, with balanced brackets, differs from a new one
by what it has found, by its moves, and by the last token that it has noted. It
reads on as the new one would, and what it has found stays in front. So a comma
between two parameters divides a list into two that can be read on their own.
-/

/-- Contents that begin behind others: what was found there stays in front. -/
def Contents.behind (contents earlier : Contents) : Contents :=
  { contents with
    last? := contents.last?.or earlier.last?
    parameters := earlier.parameters ++ contents.parameters }

/-- A reader that begins where another one has come to. -/
def Reader.behind (reader earlier : Reader) : Reader where
  state := reader.state
  moves := earlier.moves ++ reader.moves
  contents := reader.contents.behind earlier.contents

namespace Contents

variable (contents earlier : Contents)

theorem role_behind (token : Token) :
    (contents.behind earlier).role token = contents.role token :=
  rfl

theorem close_behind (config : Config) :
    (contents.behind earlier).close config =
      (contents.close config).map fun closed => closed.behind earlier := by
  simp only [close, behind]
  cases contents.draft.parameter config with
  | error fault => rfl
  | ok parameter => simp [Except.map]

end Contents

namespace Reader

variable
  {config : Config}
  {reader next : Reader}
  {token : Token}
  {tokens : List Token}

/-- Once a token was noted, an event does the same behind another reader. -/
theorem fire_behind
    {event : Event}
    {change : Contents → Except Fault Contents}
    (earlier : Reader)
    (noted : reader.contents.last? = some token)
    (commutes :
      change (reader.contents.behind earlier.contents) =
        (change reader.contents).map fun contents => contents.behind earlier.contents) :
    fire (reader.behind earlier) event change =
      (fire reader event change).map fun next => next.behind earlier := by
  have sameLast : (reader.behind earlier).contents.last? = some token := by
    simp [behind, Contents.behind, noted]
  have sameState : (reader.behind earlier).state = reader.state := rfl
  have sameContents :
      (reader.behind earlier).contents = reader.contents.behind earlier.contents := rfl
  simp only [fire, Machine.Situation.fire, sameLast, noted, sameState]
  cases table.get? (reader.state, event) with
  | none => rfl
  | some target =>
      rw [sameContents, commutes]
      cases change reader.contents with
      | error fault => rfl
      | ok contents => simp [Except.map, behind]

theorem close_behind
    (earlier : Reader)
    (noted : reader.contents.last? = some token) :
    close config (reader.behind earlier) =
      (close config reader).map fun next => next.behind earlier :=
  fire_behind earlier noted (Contents.close_behind _ _ config)

theorem take_behind
    (earlier : Reader)
    (noted : reader.contents.last? = some token) :
    take config (reader.behind earlier) token =
      (take config reader token).map fun next => next.behind earlier := by
  have sameRole :
      (reader.behind earlier).contents.role token = reader.contents.role token :=
    Contents.role_behind _ _ token
  unfold take
  rw [sameRole]
  cases reader.contents.role token with
  | opensType => exact fire_behind earlier noted rfl
  | names => exact fire_behind earlier noted rfl
  | opensDefault => exact fire_behind earlier noted rfl
  | ends => exact close_behind earlier noted
  | continues => rfl

/-- A token does the same behind another reader. -/
theorem step_behind (earlier : Reader) :
    step config (reader.behind earlier) token =
      (step config reader token).map fun next => next.behind earlier := by
  unfold step
  split
  · have noted :
        (reader.update fun contents => contents.note token).contents.last? = some token :=
      rfl
    exact take_behind earlier noted
  · rfl

/-- A reader that has left its start has noted a token. -/
def Noted (reader : Reader) : Prop :=
  reader.state ≠ .start → ∃ token, reader.contents.last? = some token

theorem last?_of_take
    (takes : take config reader token = .ok next) :
    next.contents.last? = reader.contents.last? := by
  rcases fires_of_take takes with ⟨_, changes⟩ | rfl
  · cases changes <;> rfl
  · rfl

theorem Noted.step
    (noted : Noted reader)
    (steps : step config reader token = .ok next) :
    Noted next := by
  unfold Reader.step at steps
  split at steps
  · intro _
    exact ⟨token, last?_of_take steps⟩
  · cases steps
    exact noted

theorem finish_behind
    (earlier : Reader)
    (noted : Noted reader) :
    finish config (reader.behind earlier) =
      (finish config reader).map fun next => next.behind earlier := by
  have sameState : (reader.behind earlier).state = reader.state := rfl
  unfold finish
  rw [sameState]
  split
  · rfl
  · rename_i left
    obtain ⟨token, isLast⟩ := noted left
    exact close_behind earlier isLast

/-- A reader that stands where another one does, behind an earlier one. -/
structure Resumes (earlier alone resumed : Reader) : Prop where
  -- The last token matters at the end only, where an unfinished type is blamed on it.
  noted : Noted alone
  isBehind : resumed = alone.behind earlier

theorem Resumes.step
    {earlier alone resumed : Reader}
    (resumes : Resumes earlier alone resumed)
    (token : Token) :
    Alike (Resumes earlier) (Reader.step config alone token)
      (Reader.step config resumed token) := by
  rw [resumes.isBehind, step_behind earlier]
  cases steps : Reader.step config alone token with
  | error fault => exact .error
  | ok next => exact .ok ⟨resumes.noted.step steps, rfl⟩

theorem Resumes.finish
    {earlier alone resumed : Reader}
    (resumes : Resumes earlier alone resumed) :
    (Reader.finish config resumed).map (fun last => last.contents.parameters) =
      ((Reader.finish config alone).map fun last => last.contents.parameters).map
        (earlier.contents.parameters ++ ·) := by
  rw [resumes.isBehind, finish_behind earlier resumes.noted]
  cases Reader.finish config alone <;> rfl

/-- What was found earlier stays in front of what is found behind it. -/
theorem outcome_scan_behind
    (earlier : Reader)
    (noted : Noted reader) :
    (scan config (reader.behind earlier) tokens).outcome
        (fun last => last.contents.parameters) =
      ((scan config reader tokens).outcome fun last => last.contents.parameters).map
        (earlier.contents.parameters ++ ·) := by
  have resumes : Resumes earlier reader (reader.behind earlier) := ⟨noted, rfl⟩
  exact
    Machine.Scan.outcome_eq_map_of_related (fun token related => Resumes.step related token)
      Resumes.finish resumes tokens

end Reader

/-- A reader that is back at its start is a new one behind itself. -/
theorem Tracks.eq_behind
    {config : Config}
    {reader : Reader}
    {found : List Parameter}
    (tracks : Tracks config reader .blank 0 found) :
    reader = Reader.start.behind reader := by
  rcases reader with ⟨state, moves, ⟨⟨depth⟩, draft, last?, parameters⟩⟩
  obtain ⟨phase, isBlank, level, _⟩ := tracks
  obtain rfl : state = .start := phase
  obtain rfl : draft = .blank := isBlank
  obtain rfl : depth = 0 := level
  simp [Reader.behind, Contents.behind, Reader.start, Machine.Situation.initial,
    Contents.blank, Nesting.balanced]

section Division

variable
  {config : Config}
  {first : List Token}
  {answer : List Parameter}
  {comma : Token}

/-- A comma behind an open parameter brings the reader back to its start. -/
theorem exists_run_comma
    (read : parameters config first = .ok answer)
    (balanced : first.countP opens = first.countP closes)
    (isOpen :
      (Machine.Scan.run (Reader.step config) .start first).state.state =
        .awaitingDefault)
    (separates : comma.kind = .comma) :
    ∃ last,
      Machine.Scan.run (Reader.step config) .start (first ++ [comma]) = .finished last ∧
        Tracks config last .blank 0 answer := by
  rw [parameters_eq_outcome, Reader.scan] at read
  obtain ⟨reached, closed, runs, finishes, rfl⟩ :=
    Machine.Scan.outcome_andThen_eq_ok_iff.mp read
  rw [runs] at isOpen
  have level : 0 + netOpened first = 0 := by
    simp [netOpened, balanced]
  obtain ⟨fragment, found, tracks⟩ := tracks_of_run (tracks_start config) runs
  rw [level] at tracks
  obtain ⟨item, rfl⟩ := tracks.exists_item isOpen
  have closes : Reader.close config reached = .ok closed := by
    have left : reached.state ≠ .start := by
      rw [show reached.state = .awaitingDefault from isOpen]
      decide
    rw [Reader.finish, if_neg left] at finishes
    exact finishes
  obtain ⟨acceptable, closedTracks⟩ := tracks_of_close tracks closes
  obtain ⟨last, closesHere, lastTracks⟩ :=
    close_of_acceptable (tracks.note comma) acceptable
  have significant : comma.isSignificant = true := by
    simp [Token.isSignificant, separates, Token.Kind.isSignificant, Token.Kind.isLayout]
  have separator : Placed.letter ⟨comma, 0⟩ = .separator := by
    simp [Placed.letter, separates]
  have steps : Reader.step config reached comma = .ok last :=
    (step_of_ends tracks significant separator).trans closesHere
  refine ⟨last, ?_, ?_⟩
  · rw [Machine.Scan.run_append, runs]
    exact Machine.Scan.run_cons_eq_finished_iff.mpr ⟨last, steps, rfl⟩
  · exact ⟨lastTracks.phase, lastTracks.draft, lastTracks.depth,
      lastTracks.found.trans closedTracks.found.symm⟩

/--
A list of parameters behind a balanced list of which the last parameter is open,
with a comma between them, is read as if it stood alone: what it answers follows
the parameters in front of the comma, and its fault is the fault of the whole. A
comma with nothing behind it changes nothing.
-/
theorem parameters_append_comma
    (read : parameters config first = .ok answer)
    (balanced : first.countP opens = first.countP closes)
    (isOpen :
      (Machine.Scan.run (Reader.step config) .start first).state.state =
        .awaitingDefault)
    (separates : comma.kind = .comma) :
    (∀ rest,
        parameters config (first ++ comma :: rest) =
          (parameters config rest).map (answer ++ ·)) ∧
      parameters config (first ++ [comma]) = .ok answer := by
  obtain ⟨last, runs, tracks⟩ := exists_run_comma read balanced isOpen separates
  have divided :
      ∀ rest,
        parameters config (first ++ comma :: rest) =
          (parameters config rest).map (answer ++ ·) := by
    intro rest
    have readsOn :
        Machine.Scan.run (Reader.step config) .start (first ++ comma :: rest) =
          Machine.Scan.run (Reader.step config) (Reader.start.behind last) rest := by
      rw [← tracks.eq_behind, ← List.singleton_append, ← List.append_assoc,
        Machine.Scan.run_append, runs]
      rfl
    have noted : Reader.Noted .start := fun left => (left rfl).elim
    rw [parameters_eq_outcome, Reader.scan, readsOn]
    change (Reader.scan config (Reader.start.behind last) rest).outcome _ = _
    rw [Reader.outcome_scan_behind last noted, tracks.found]
    rfl
  refine ⟨divided, ?_⟩
  calc
    parameters config (first ++ [comma]) =
        (parameters config []).map (answer ++ ·) := divided []
    _ = .ok answer := congrArg Except.ok (List.append_nil answer)

end Division

/-- A parameter with brackets in its type and in its default. -/
def portList : List Token :=
  [⟨.typeWord, "Array", .first⟩, ⟨.openBracket, "[", .first⟩,
    ⟨.typeWord, "Integer", .first⟩, ⟨.closeBracket, "]", .first⟩,
    ⟨.whitespace, " ", .first⟩, ⟨.parameterName, "$ports", .first⟩,
    ⟨.equals, "=", .first⟩, ⟨.openBracket, "[", .first⟩, ⟨.other, "80", .first⟩,
    ⟨.closeBracket, "]", .first⟩, ⟨.newline, "\n", .first⟩]

/-- What the list is read as. -/
def port : Parameter :=
  ⟨"ports", "Array[Integer]", .withDefault, "[80]", "undef"⟩

/-- What follows the parameter and a comma is read on its own. -/
theorem parameters_append_comma_portList :
    parameters Config.standard portList = .ok [port] ∧
      (∀ rest,
          parameters Config.standard (portList ++ ⟨.comma, ",", .first⟩ :: rest) =
            (parameters Config.standard rest).map ([port] ++ ·)) ∧
        parameters Config.standard (portList ++ [⟨.comma, ",", .first⟩]) = .ok [port] :=
  ⟨rfl, parameters_append_comma rfl (by decide) rfl rfl⟩

end DocAudit.Signature
