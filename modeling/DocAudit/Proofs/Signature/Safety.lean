import DocAudit.Proofs.Signature.Accounting
import DocAudit.Proofs.Signature.Composition
import DocAudit.Proofs.Signature.WrongDefault

namespace DocAudit.Signature

/-!
# Which tokens are blamed

A parameter list is read, or refused for one of its significant tokens. The token
is the one at which the reader has to stop, the last one when a type is still open
at the end, or the first token of the first wrong default. There is always such a
token: a reader that has left its start has noted one, and a default that is wrong
is not empty. The main statement is `parameters_blame_token`.
-/

/-- The errors that a token can be refused with. -/
inductive Blames
    (config : Config)
    (token : Token) :
    ParseError → Prop where
  | unexpected
      (phase : Phase) :
      Blames config token (.unexpectedToken token phase.name)
  | wrongDefault
      (text : String) :
      Blames config token (.optionalDefault token text config.nullDefault)

/-- An error is reported where the token is that it blames. -/
theorem Blames.position
    {config : Config}
    {token : Token}
    {error : ParseError}
    (blames : Blames config token error) :
    error.position = token.position := by
  cases blames <;> rfl

section Faults

variable
  {config : Config}
  {reader last next : Reader}
  {fragment : Fragment}
  {depth : Int}
  {found : List Parameter}
  {tokens : List Token}
  {token : Token}
  {fault : Fault}

/-- A reader notes the significant tokens. -/
theorem last?_of_step
    (steps : Reader.step config reader token = .ok next) :
    next.contents.last? =
      if token.isSignificant then some token else reader.contents.last? := by
  by_cases significant : token.isSignificant = true
  · rw [Reader.step, if_pos significant] at steps
    rw [if_pos significant]
    exact Reader.last?_of_take steps
  · rw [step_of_not_significant significant] at steps
    cases steps
    rw [if_neg significant]

/-- The last token that a reader has noted is the last significant one. -/
theorem last?_of_run
    (runs : Machine.Scan.run (Reader.step config) reader tokens = .finished last) :
    last.contents.last? =
      (tokens.filter Token.isSignificant).getLast?.or reader.contents.last? := by
  induction tokens generalizing reader with
  | nil =>
      cases runs
      rfl
  | cons token rest inductionHypothesis =>
      obtain ⟨next, steps, runsOn⟩ := Machine.Scan.run_cons_eq_finished_iff.mp runs
      rw [inductionHypothesis runsOn, last?_of_step steps]
      by_cases significant : token.isSignificant = true
      · rw [if_pos significant, List.filter_cons_of_pos significant,
          List.getLast?_cons]
        cases (rest.filter Token.isSignificant).getLast? <;> rfl
      · rw [if_neg significant, List.filter_cons_of_neg significant]

/-- An item cannot be closed for its default only. -/
theorem wrongDefault_of_close
    {item : Item}
    (tracks : Tracks config reader (.named item) depth found)
    (fails : Reader.close config reader = .error fault) :
    ∃ blamed text null, fault = .unreadable (.optionalDefault blamed text null) := by
  by_cases acceptable : item.Acceptable config
  · obtain ⟨after, closes, _⟩ := close_of_acceptable tracks acceptable
    rw [closes] at fails
    cases fails
  · obtain ⟨first, rest, _, refused⟩ := close_of_not_acceptable tracks acceptable
    rw [refused] at fails
    cases fails
    exact ⟨_, _, _, rfl⟩

/-- A token is refused because it is not expected, or a default that it ends is wrong. -/
theorem refusal_of_step
    (tracks : Tracks config reader fragment depth found)
    (fails : Reader.step config reader token = .error fault) :
    (token.isSignificant = true ∧
        ∃ phase : Phase, fault = .unreadable (.unexpectedToken token phase.name)) ∨
      ∃ blamed text null, fault = .unreadable (.optionalDefault blamed text null) := by
  by_cases significant : token.isSignificant = true
  · rcases step_cases tracks significant with
      ⟨_, after, _, steps, _⟩ | ⟨item, rfl, _, closes⟩ | ⟨_, _, refused⟩
    · rw [steps] at fails
      cases fails
    · exact .inr (wrongDefault_of_close (tracks.note token) (closes.symm.trans fails))
    · rw [refused] at fails
      cases fails
      exact .inl ⟨significant, _, rfl⟩
  · rw [step_of_not_significant significant] at fails
    cases fails

/-- A list that ends too early ends in a type, or with a wrong default. -/
theorem refusal_of_finish
    (tracks : Tracks config reader fragment depth found)
    (fails : Reader.finish config reader = .error fault) :
    (∃ front type,
        fragment = .typed front type ∧
          fault =
            .blaming reader.contents.last? fun token =>
              .unexpectedToken token Phase.awaitingName.name) ∨
      ∃ blamed text null, fault = .unreadable (.optionalDefault blamed text null) := by
  by_cases atStart : reader.state = .start
  · rw [Reader.finish, if_pos atStart] at fails
    cases fails
  · rw [Reader.finish, if_neg atStart] at fails
    cases fragment with
    | lead words => exact (atStart tracks.phase).elim
    | typed front type =>
        have isFault := Except.error.inj (fails.symm.trans (close_of_typed tracks))
        exact .inl ⟨front, type, rfl, isFault⟩
    | named item => exact .inr (wrongDefault_of_close tracks fails)

/-- The tokens of a wrong default are tokens of the list. -/
theorem FirstWrong.mem
    {words : List Placed}
    {item : Item}
    (firstWrong : FirstWrong config words item)
    {word : Placed}
    (member : word ∈ item.defaultWords) :
    word ∈ words := by
  obtain ⟨front, rest, earlier, rfl, listed, _⟩ := firstWrong
  have contributes : word ∈ (earlier ++ [item]).flatMap Item.contributing := by
    simp [Item.contributing, member]
  exact List.mem_append_left rest (listed.contributing_sublist.subset contributes)

theorem blames_of_wrongDefault
    {text null : String}
    (refused :
      parameters config tokens =
        .error (.unreadable (.optionalDefault token text null))) :
    token ∈ tokens ∧
      token.isSignificant = true ∧
        Blames config token (.optionalDefault token text null) := by
  obtain ⟨item, firstWrong, reported⟩ := parameters_eq_wrongDefault_iff.mp refused
  obtain ⟨word, isFirst, rfl⟩ := Option.map_eq_some_iff.mp reported.first
  have isWord := firstWrong.mem (List.mem_of_head? isFirst)
  have isToken : word.token ∈ tokens.filter Token.isSignificant := by
    rw [← map_token_placed (tokens.filter Token.isSignificant)]
    exact List.mem_map_of_mem isWord
  obtain ⟨member, significant⟩ := List.mem_filter.mp isToken
  refine ⟨member, significant, ?_⟩
  rw [reported.null]
  exact .wrongDefault text

/-- A token that was noted last is a significant token of the list. -/
theorem mem_of_last?
    (runs : Machine.Scan.run (Reader.step config) .start tokens = .finished last)
    (isLast : last.contents.last? = some token) :
    token ∈ tokens ∧ token.isSignificant = true := by
  have noted : (tokens.filter Token.isSignificant).getLast? = some token := by
    rw [last?_of_run runs] at isLast
    simpa [Reader.start, Machine.Situation.initial, Contents.blank] using isLast
  exact List.mem_filter.mp (List.mem_of_getLast? noted)

/-- A parameter list that is refused is refused for one of its significant tokens. -/
theorem exists_blames_of_parameters
    (refused : parameters config tokens = .error fault) :
    ∃ token ∈ tokens,
      token.isSignificant = true ∧
        ∃ error, fault = .unreadable error ∧ Blames config token error := by
  have ofWrongDefault :
      (∃ blamed text null, fault = .unreadable (.optionalDefault blamed text null)) →
        ∃ token ∈ tokens,
          token.isSignificant = true ∧
            ∃ error, fault = .unreadable error ∧ Blames config token error := by
    rintro ⟨blamed, text, null, rfl⟩
    obtain ⟨member, significant, blames⟩ := blames_of_wrongDefault refused
    exact ⟨blamed, member, significant, _, rfl, blames⟩
  have answer := refused
  rw [parameters_eq_outcome, Reader.scan] at answer
  obtain ⟨reached, stopped | ⟨finished, unfinished⟩⟩ :=
    Machine.Scan.exists_of_outcome_andThen_eq_error answer
  · obtain ⟨front, token, back, split, reads, fails⟩ :=
      Machine.Scan.exists_of_run_eq_stopped stopped
    obtain ⟨_, _, tracks⟩ := tracks_of_run (tracks_start config) reads
    rcases refusal_of_step tracks fails with ⟨significant, phase, isFault⟩ | wrong
    · exact ⟨token, by simp [split], significant, _, isFault, .unexpected phase⟩
    · exact ofWrongDefault wrong
  · obtain ⟨_, _, tracks⟩ := tracks_of_run (tracks_start config) finished
    rcases refusal_of_finish tracks unfinished with ⟨_, _, rfl, isFault⟩ | wrong
    · -- A reader that has left its start has noted a token that can be blamed.
      have left : reached.state ≠ .start := by simp [tracks.phase, Fragment.phase]
      have noted : Reader.Noted reached :=
        Machine.Scan.holds_of_run Reader.Noted.step (fun atStart => (atStart rfl).elim)
          finished
      obtain ⟨token, isLast⟩ := noted left
      obtain ⟨member, significant⟩ := mem_of_last? finished isLast
      rw [isLast] at isFault
      exact ⟨token, member, significant, _, isFault, .unexpected .awaitingName⟩
    · exact ofWrongDefault wrong

/--
A parameter list is read, or refused for one of its significant tokens and at its
place. It is refused for a default exactly when it has a first item with a wrong
default, and the report is about that item, of which there is one at most.
-/
theorem parameters_blame_token
    (config : Config)
    (tokens : List Token) :
    ((∃ answer, parameters config tokens = .ok answer) ∨
        ∃ token ∈ tokens,
          token.isSignificant = true ∧
            ∃ error,
              parameters config tokens = .error (.unreadable error) ∧
                Blames config token error ∧ error.position = token.position) ∧
      (∀ token text null,
          parameters config tokens =
              .error (.unreadable (.optionalDefault token text null)) ↔
            ∃ item,
              FirstWrong config (placed (tokens.filter Token.isSignificant)) item ∧
                item.Reported config token text null) ∧
        ∀ item other,
          FirstWrong config (placed (tokens.filter Token.isSignificant)) item →
            FirstWrong config (placed (tokens.filter Token.isSignificant)) other →
              other = item := by
  refine ⟨?_, fun token text null => parameters_eq_wrongDefault_iff, ?_⟩
  · cases outcome : parameters config tokens with
    | ok answer => exact .inl ⟨answer, rfl⟩
    | error fault =>
        obtain ⟨token, member, significant, error, rfl, blames⟩ :=
          exists_blames_of_parameters outcome
        exact .inr ⟨token, member, significant, error, rfl, blames, blames.position⟩
  · intro item other first again
    exact (firstWrong_iff_spoils.mp first).unique (firstWrong_iff_spoils.mp again)

end Faults

/-- An optional type with a default other than the null literal, behind two that are right. -/
def spoiledList : List Token :=
  [⟨.typeWord, "Optional", ⟨1, 1⟩⟩, ⟨.parameterName, "$host", ⟨1, 10⟩⟩,
    ⟨.equals, "=", ⟨1, 16⟩⟩, ⟨.comma, ",", ⟨1, 17⟩⟩,
    ⟨.parameterName, "$port", ⟨2, 1⟩⟩, ⟨.equals, "=", ⟨2, 7⟩⟩,
    ⟨.other, "80", ⟨2, 9⟩⟩, ⟨.comma, ",", ⟨2, 11⟩⟩,
    ⟨.typeWord, "Optional", ⟨3, 1⟩⟩, ⟨.parameterName, "$path", ⟨3, 10⟩⟩,
    ⟨.equals, "=", ⟨3, 16⟩⟩, ⟨.other, "", ⟨3, 18⟩⟩, ⟨.other, "/srv", ⟨3, 19⟩⟩,
    ⟨.comma, ",", ⟨3, 23⟩⟩, ⟨.equals, "=", ⟨4, 1⟩⟩]

/-- The report carries the first token of the default, and the equals sign comes too late. -/
example :
    parameters Config.standard spoiledList =
      .error (.unreadable (.optionalDefault ⟨.other, "", ⟨3, 18⟩⟩ "/srv" "undef")) :=
  rfl

end DocAudit.Signature
