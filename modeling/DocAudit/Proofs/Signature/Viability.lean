import DocAudit.Proofs.Signature.Safety

namespace DocAudit.Signature

/-!
# Where a parameter list goes wrong

A token that is not expected is refused as early as can be. The tokens in front of it
could still become a list that is read, with one more name at most: a reader that has
come to some place is nowhere in a dead end, since only an open type keeps a list from
ending there, and a name closes the type. With the token, no list can be read that
begins so. The main statement is `unexpectedToken_at_earliest`.
-/

/-- A list is refused for a token that is not expected. -/
def Surprising
    (config : Config)
    (tokens : List Token) : Prop :=
  ∃ token state,
    parameters config tokens = .error (.unreadable (.unexpectedToken token state))

/-- Tokens that one more name, or none, continues to a list without a surprise. -/
def Continuable
    (config : Config)
    (front : List Token) : Prop :=
  ∃ names : List Token,
    names.length ≤ 1 ∧
      (∀ name ∈ names, name.kind = .parameterName) ∧
        ¬ Surprising config (front ++ names)

section Places

variable
  {config : Config}
  {reader reached : Reader}
  {front type : List Placed}
  {depth : Int}
  {found : List Parameter}
  {tokens : List Token}
  {token name : Token}
  {state : String}
  {fault : Fault}

/-- Behind tokens that are read, a list is read from where the reader has come to. -/
theorem parameters_append_of_run
    (reads : Machine.Scan.run (Reader.step config) .start tokens = .finished reached)
    (rest : List Token) :
    parameters config (tokens ++ rest) =
      (Reader.scan config reached rest).outcome fun last => last.contents.parameters := by
  rw [parameters_eq_outcome, Reader.scan, Machine.Scan.run_append, reads]
  rfl

/-- A list that is read to its end answers what closing the reader answers. -/
theorem parameters_of_run
    (reads : Machine.Scan.run (Reader.step config) .start tokens = .finished reached) :
    parameters config tokens =
      (Reader.finish config reached).map fun last => last.contents.parameters := by
  rw [parameters_eq_outcome, Reader.scan, reads]
  exact Machine.Scan.outcome_finished reached

/-- A token that stops the reader stops it in every list that begins so. -/
theorem parameters_append_of_stuck
    (reads : Machine.Scan.run (Reader.step config) .start tokens = .finished reached)
    (fails : Reader.step config reached token = .error fault)
    (rest : List Token) :
    parameters config (tokens ++ token :: rest) = .error fault := by
  rw [parameters_append_of_run reads, Reader.scan, Machine.Scan.outcome_run_cons, fails]
  rfl

/-- A name closes an open type, and a parameter may end behind its name. -/
theorem exists_outcome_of_typed
    {type : Part}
    (tracks : Tracks config reader (.typed front type) depth found)
    (isName : name.kind = .parameterName) :
    ∃ answer,
      (Reader.scan config reader [name]).outcome
          (fun last => last.contents.parameters) = .ok answer := by
  have letter : Placed.letter ⟨name, depth⟩ = .name := by
    simp [Placed.letter, isName]
  have named :
      Fragment.extend? (.typed front type) ⟨name, depth⟩ =
        some (.named ⟨front, some type, ⟨name, depth⟩, [], none⟩) := by
    simp [Fragment.extend?, letter]
  have acceptable :
      Item.Acceptable config ⟨front, some type, ⟨name, depth⟩, [], none⟩ :=
    fun _ => .inl rfl
  have significant : ∀ token ∈ [name], token.isSignificant = true := by
    simp [Token.isSignificant, Token.Kind.isSignificant, Token.Kind.isLayout, isName]
  refine ⟨_, (outcome_scan_eq_ok_iff tracks significant).mpr ⟨_, .extend named .item, ?_, rfl⟩⟩
  exact List.forall_mem_singleton.mpr acceptable

/-- Only an open type makes the end of a list a surprise, with the last token to blame. -/
theorem typed_of_finish
    (reads : Machine.Scan.run (Reader.step config) .start tokens = .finished reached)
    (fails :
      Reader.finish config reached =
        .error (.unreadable (.unexpectedToken token state))) :
    (∃ front type depth found, Tracks config reached (.typed front type) depth found) ∧
      state = Phase.awaitingName.name ∧
        (tokens.filter Token.isSignificant).getLast? = some token := by
  obtain ⟨_, _, tracks⟩ := tracks_of_run (tracks_start config) reads
  rcases refusal_of_finish tracks fails with
    ⟨front, type, rfl, isFault⟩ | ⟨_, _, _, isFault⟩
  · obtain ⟨blamed, isLast, sameError⟩ := Fault.blaming_eq_unreadable_iff.mp isFault.symm
    cases sameError
    refine ⟨⟨_, _, _, _, tracks⟩, rfl, ?_⟩
    have lastNoted := last?_of_run reads
    rw [isLast] at lastNoted
    simpa [Reader.start, Machine.Situation.initial, Contents.blank] using lastNoted.symm
  · cases isFault

/-- Every reader that reads on can come to an end, with one more name at most. -/
theorem continuable_of_run
    (reads : Machine.Scan.run (Reader.step config) .start tokens = .finished reached) :
    Continuable config tokens := by
  by_cases surprising : Surprising config tokens
  · obtain ⟨token, state, refused⟩ := surprising
    rw [parameters_of_run reads, map_eq_error_iff] at refused
    obtain ⟨⟨_, _, _, _, tracks⟩, _, _⟩ := typed_of_finish reads refused
    have isName : (Token.mk .parameterName "" .first).kind = .parameterName := rfl
    obtain ⟨answer, answers⟩ := exists_outcome_of_typed tracks isName
    refine ⟨[⟨.parameterName, "", .first⟩], Nat.le_refl 1, by simp, ?_⟩
    rintro ⟨token, state, refused⟩
    rw [parameters_append_of_run reads, answers] at refused
    cases refused
  · refine ⟨[], Nat.zero_le 1, by simp, ?_⟩
    rwa [List.append_nil]

/--
A list that is refused for a token that is not expected is refused as early as can be.
Either the reader stops at the token, so that the tokens in front of it can be
continued, and every list that begins with them and the token is refused in the same
way; or the reader comes to the end of the list and a name is awaited there, so that
the last significant token is blamed, and any name behind the list makes it readable.
-/
theorem unexpectedToken_at_earliest
    (refused :
      parameters config tokens =
        .error (.unreadable (.unexpectedToken token state))) :
    (∃ front back reached,
        tokens = front ++ token :: back ∧
          Machine.Scan.run (Reader.step config) .start front = .finished reached ∧
            Reader.step config reached token =
                .error (.unreadable (.unexpectedToken token state)) ∧
              Continuable config front ∧
                ∀ rest,
                  parameters config (front ++ token :: rest) =
                    .error (.unreadable (.unexpectedToken token state))) ∨
      ∃ reached,
        Machine.Scan.run (Reader.step config) .start tokens = .finished reached ∧
          reached.state = .awaitingName ∧
            state = Phase.awaitingName.name ∧
              (tokens.filter Token.isSignificant).getLast? = some token ∧
                ∀ name,
                  name.kind = .parameterName →
                    ∃ answer, parameters config (tokens ++ [name]) = .ok answer := by
  have answer := refused
  rw [parameters_eq_outcome, Reader.scan] at answer
  obtain ⟨reached, stopped | ⟨reads, unfinished⟩⟩ :=
    Machine.Scan.exists_of_outcome_andThen_eq_error answer
  · left
    obtain ⟨front, stuck, back, split, reads, fails⟩ :=
      Machine.Scan.exists_of_run_eq_stopped stopped
    obtain ⟨_, _, tracks⟩ := tracks_of_run (tracks_start config) reads
    -- The reader blames the token at which it stops, so that is the one that is reported.
    obtain rfl : stuck = token := by
      rcases refusal_of_step tracks fails with ⟨_, _, isFault⟩ | ⟨_, _, _, isFault⟩
      · cases isFault
        rfl
      · cases isFault
    exact
      ⟨front, back, reached, split, reads, fails, continuable_of_run reads,
        parameters_append_of_stuck reads fails⟩
  · right
    obtain ⟨⟨_, _, _, _, tracks⟩, awaitsName, isLast⟩ := typed_of_finish reads unfinished
    refine ⟨reached, reads, tracks.phase, awaitsName, isLast, ?_⟩
    intro name isName
    rw [parameters_append_of_run reads]
    exact exists_outcome_of_typed tracks isName

end Places

/-- A name where a comma is missing. -/
def strayName : Token :=
  ⟨.parameterName, "$port", ⟨2, 1⟩⟩

/-- Two parameters without a comma between them, behind one that is complete. -/
def crowdedList : List Token :=
  [⟨.typeWord, "Integer", ⟨1, 1⟩⟩, ⟨.parameterName, "$size", ⟨1, 9⟩⟩,
    ⟨.comma, ",", ⟨1, 14⟩⟩, ⟨.parameterName, "$host", ⟨1, 16⟩⟩,
    ⟨.newline, "\n", ⟨1, 21⟩⟩, strayName, ⟨.equals, "=", ⟨2, 7⟩⟩]

/-- The second name is refused where it stands, and no list that begins so is read. -/
theorem unexpectedToken_at_earliest_crowdedList :
    parameters Config.standard crowdedList =
        .error (.unreadable (.unexpectedToken strayName "awaiting_default")) ∧
      ∃ front back reached,
        crowdedList = front ++ strayName :: back ∧
          Machine.Scan.run (Reader.step Config.standard) .start front =
              .finished reached ∧
            Reader.step Config.standard reached strayName =
                .error (.unreadable (.unexpectedToken strayName "awaiting_default")) ∧
              Continuable Config.standard front ∧
                ∀ rest,
                  parameters Config.standard (front ++ strayName :: rest) =
                    .error
                      (.unreadable (.unexpectedToken strayName "awaiting_default")) := by
  refine ⟨rfl, (unexpectedToken_at_earliest rfl).resolve_right ?_⟩
  rintro ⟨reached, reads, _⟩
  have noFault := congrArg Machine.Scan.fault? reads
  cases noFault

/-- Behind a type the end of the list comes too early. -/
example :
    parameters Config.standard [⟨.typeWord, "Integer", ⟨1, 1⟩⟩] =
      .error
        (.unreadable (.unexpectedToken ⟨.typeWord, "Integer", ⟨1, 1⟩⟩ "awaiting_name")) :=
  rfl

end DocAudit.Signature
