import DocAudit.Proofs.Machine.Lockstep
import DocAudit.Proofs.Signature.Safety

namespace DocAudit

/-!
# Layout of parameter lists

The kind and the text of a token are its word. Two parameter lists that differ in
their layout have the same words: layout and comments may stand anywhere, and the
tokens may stand at other places. Reading the one goes in step with reading the
other. The two readers hold tokens that are paired, and what they answer depends on
the words only, except that a token that is blamed is blamed with its place. The
main statement is `run_of_words_eq`.
-/

namespace Token

/-- What a token says, wherever it stands. -/
def word (token : Token) : Kind × String :=
  (token.kind, token.text)

/-- Tokens that say the same are of one kind. -/
theorem kind_eq_of_word_eq
    {token other : Token}
    (same : other.word = token.word) :
    other.kind = token.kind :=
  congrArg Prod.fst same

/-- Tokens that say the same have one text. -/
theorem text_eq_of_word_eq
    {token other : Token}
    (same : other.word = token.word) :
    other.text = token.text :=
  congrArg Prod.snd same

theorem trimmed_eq_of_word_eq
    {token other : Token}
    (same : other.word = token.word) :
    other.trimmed = token.trimmed := by
  rw [trimmed, trimmed, core, core, text_eq_of_word_eq same]

/-- Two tokens stand at the same index of two lists. -/
def StandsAt
    (tokens others : List Token)
    (token other : Token) :
    Prop :=
  ∃ index : Nat, tokens[index]? = some token ∧ others[index]? = some other

/-- Tokens at one index say the same when the lists do. -/
theorem StandsAt.word_eq
    {tokens others : List Token}
    {token other : Token}
    (same : others.map word = tokens.map word)
    (stands : StandsAt tokens others token other) :
    other.word = token.word := by
  obtain ⟨index, isToken, isOther⟩ := stands
  have sameThere := congrArg (fun words => words[index]?) same
  simpa [isToken, isOther] using sameThere

/-- Lists that say the same consist of tokens that stand at the same indices. -/
theorem forall₂_standsAt
    {tokens others : List Token}
    (same : others.map word = tokens.map word) :
    List.Forall₂ (StandsAt tokens others) tokens others := by
  have sameLength : tokens.length = others.length := by
    simpa using (congrArg List.length same).symm
  refine List.forall₂_iff_get.mpr ⟨sameLength, ?_⟩
  intro index inTokens inOthers
  exact
    ⟨index, by simp [List.getElem?_eq_getElem inTokens],
      by simp [List.getElem?_eq_getElem inOthers]⟩

end Token

namespace ParseError

/-- The same error about another token. -/
def about (other : Token) : ParseError → ParseError
  | .general message position => .general message position
  | .unexpectedToken _ state => .unexpectedToken other state
  | .optionalDefault _ defaultText nullDefault =>
      .optionalDefault other defaultText nullDefault
  | .unexpectedComment _ state => .unexpectedComment other state
  | .foreignOption _ => .foreignOption other
  | .malformedHeader _ => .malformedHeader other

/-- An error has the same message about a token that says the same. -/
theorem message_about
    {error : ParseError}
    {token other : Token}
    (shown : error.token? = some token)
    (same : other.word = token.word) :
    (error.about other).message = error.message := by
  have sameTrimmed := Token.trimmed_eq_of_word_eq same
  cases error with
  | general message position => rfl
  | optionalDefault _ defaultText nullDefault => rfl
  | unexpectedToken blamed _ | unexpectedComment blamed _ | foreignOption blamed
  | malformedHeader blamed =>
      cases shown
      -- The equations of the messages take long to derive, so the definitions are opened.
      delta message about
      simp only [sameTrimmed]

end ParseError

/-- Two faults show paired tokens with the same error, or show no token. -/
inductive Fault.Paired
    (paired : Token → Token → Prop) :
    Fault →
    Fault →
    Prop where
  | unreadable
      {token other : Token}
      {error : ParseError} :
      paired token other →
      error.token? = some token →
      Paired paired (.unreadable error) (.unreadable (error.about other))
  | noToken :
      Paired paired .noToken .noToken

namespace Signature

section Words

variable
  {paired : Token → Token → Prop}
  {config : Config}
  {token other : Token}

/-- Paired tokens are blamed with the same error. -/
theorem paired_blaming
    {token? other? : Option Token}
    {report : Token → ParseError}
    (tokens : Option.Rel paired token? other?)
    (shows : ∀ token, (report token).token? = some token)
    (isAbout : ∀ token other, report other = (report token).about other) :
    Fault.Paired paired (.blaming token? report) (.blaming other? report) := by
  cases tokens with
  | none => exact .noToken
  | @some token other isPair =>
      rw [Fault.blaming, Fault.blaming, isAbout token other]
      exact .unreadable isPair (shows token)

/-- Two drafts hold paired tokens and the same texts. -/
structure Draft.Paired
    (paired : Token → Token → Prop)
    (draft other : Draft) :
    Prop where
  typeTokens? :
    Option.Rel (List.Forall₂ paired) draft.typeTokens? other.typeTokens?
  name : other.name = draft.name
  declaredType : other.declaredType = draft.declaredType
  optional : other.optional = draft.optional
  defaultTokens? :
    Option.Rel (List.Forall₂ paired) draft.defaultTokens? other.defaultTokens?

/-- Two readers hold paired tokens, and have found the same parameters. -/
structure Contents.Paired
    (paired : Token → Token → Prop)
    (contents other : Contents) :
    Prop where
  nesting : other.nesting = contents.nesting
  draft : contents.draft.Paired paired other.draft
  last? : Option.Rel paired contents.last? other.last?
  parameters : other.parameters = contents.parameters

/-- Two readers stand in one phase after the same moves, and hold paired tokens. -/
abbrev Reader.Paired (paired : Token → Token → Prop) : Reader → Reader → Prop :=
  Machine.Situation.Mirrors fun _ => Contents.Paired paired

section Drafts

variable
  {draft otherDraft : Draft}
  {tokens others : List Token}

/-- Of two paired drafts, what is open in one is open in the other. -/
theorem isSome_eq_of_rel
    {related : α → β → Prop}
    {value? : Option α}
    {other? : Option β}
    (rel : Option.Rel related value? other?) :
    other?.isSome = value?.isSome := by
  cases rel <;> rfl

/-- Where nothing is open there are no tokens on either side. -/
theorem forall₂_getD
    {tokens? others? : Option (List Token)}
    (rel : Option.Rel (List.Forall₂ paired) tokens? others?) :
    List.Forall₂ paired (tokens?.getD []) (others?.getD []) := by
  cases rel with
  | none => exact .nil
  | some pairs => exact pairs

theorem rel_head?
    (pairs : List.Forall₂ paired tokens others) :
    Option.Rel paired tokens.head? others.head? := by
  cases pairs with
  | nil => exact .none
  | cons isPair _ => exact .some isPair

namespace Draft

/-- Nothing is paired with nothing. -/
theorem paired_blank : blank.Paired paired blank where
  typeTokens? := .none
  name := rfl
  declaredType := rfl
  optional := rfl
  defaultTokens? := .none

theorem Paired.openType
    (drafts : draft.Paired paired otherDraft)
    (isPair : paired token other) :
    (draft.openType token).Paired paired (otherDraft.openType other) :=
  { drafts with typeTokens? := .some (.cons isPair .nil) }

theorem Paired.openDefault
    (drafts : draft.Paired paired otherDraft) :
    draft.openDefault.Paired paired otherDraft.openDefault :=
  { drafts with defaultTokens? := .some .nil }

/-- What is open takes both tokens of a pair. -/
theorem Paired.append
    (drafts : draft.Paired paired otherDraft)
    (isPair : paired token other) :
    (draft.append token).Paired paired (otherDraft.append other) := by
  obtain ⟨typeTokens?, _, _, _, defaultTokens?⟩ := draft
  obtain ⟨otherTypeTokens?, _, _, _, otherDefaultTokens?⟩ := otherDraft
  have types : Option.Rel (List.Forall₂ paired) typeTokens? otherTypeTokens? :=
    drafts.typeTokens?
  have defaults : Option.Rel (List.Forall₂ paired) defaultTokens? otherDefaultTokens? :=
    drafts.defaultTokens?
  -- An open type takes the token, also when a default is open behind it.
  cases types with
  | some typePairs =>
      exact
        { drafts with
          typeTokens? := .some (List.rel_append typePairs (.cons isPair .nil)) }
  | none =>
      cases defaults with
      | some defaultPairs =>
          exact
            { drafts with
              defaultTokens? :=
                .some (List.rel_append defaultPairs (.cons isPair .nil)) }
      | none => exact drafts

variable (sameWord : ∀ {token other : Token}, paired token other → other.word = token.word)
include sameWord

/-- Tokens that say the same are joined to the same text. -/
theorem joined_eq
    (pairs : List.Forall₂ paired tokens others) :
    Token.joined others = Token.joined tokens := by
  have sameTexts : others.map Token.text = tokens.map Token.text := by
    induction pairs with
    | nil => rfl
    | cons isPair _ inductionHypothesis =>
        rw [List.map_cons, List.map_cons, inductionHypothesis,
          Token.text_eq_of_word_eq (sameWord isPair)]
  rw [Token.joined, Token.joined, sameTexts]

theorem isOptional_eq
    (pairs : List.Forall₂ paired tokens others) :
    isOptional config others = isOptional config tokens := by
  cases pairs with
  | nil => rfl
  | cons isPair _ =>
      rw [isOptional, isOptional, Token.text_eq_of_word_eq (sameWord isPair)]

theorem Paired.setName
    (drafts : draft.Paired paired otherDraft)
    (isPair : paired token other) :
    (draft.setName config token).Paired paired (otherDraft.setName config other) := by
  have types := forall₂_getD drafts.typeTokens?
  exact
    { typeTokens? := .none
      name := by
        simp only [Draft.setName, nameOf, Token.text_eq_of_word_eq (sameWord isPair)]
      declaredType := joined_eq sameWord types
      optional := isOptional_eq sameWord types
      defaultTokens? := drafts.defaultTokens? }

theorem Paired.defaultText_eq
    (drafts : draft.Paired paired otherDraft) :
    otherDraft.defaultText = draft.defaultText :=
  joined_eq sameWord (forall₂_getD drafts.defaultTokens?)

theorem Paired.record_eq
    (drafts : draft.Paired paired otherDraft) :
    otherDraft.record config = draft.record config := by
  simp only [record, category, drafts.name, drafts.declaredType, drafts.optional,
    drafts.defaultText_eq sameWord]

theorem Paired.hasWrongDefault_eq
    (drafts : draft.Paired paired otherDraft) :
    otherDraft.hasWrongDefault config = draft.hasWrongDefault config := by
  simp only [hasWrongDefault, drafts.optional, drafts.defaultText_eq sameWord]

/-- Paired drafts become the same parameter, or their defaults are wrong alike. -/
theorem Paired.inStep_parameter
    (drafts : draft.Paired paired otherDraft) :
    InStep (Fault.Paired paired) Eq
      (draft.parameter config)
      (otherDraft.parameter config) := by
  have sameVerdict :
      otherDraft.hasWrongDefault config = draft.hasWrongDefault config :=
    drafts.hasWrongDefault_eq sameWord
  cases wrong : draft.hasWrongDefault config with
  | false =>
      rw [parameter_eq_record wrong, parameter_eq_record (sameVerdict.trans wrong)]
      exact .ok (drafts.record_eq sameWord).symm
  | true =>
      rw [parameter_eq_error wrong, parameter_eq_error (sameVerdict.trans wrong),
        drafts.defaultText_eq sameWord]
      exact
        .error
          (paired_blaming
            (rel_head? (forall₂_getD drafts.defaultTokens?))
            (fun _ => rfl)
            (fun _ _ => rfl))

end Draft

end Drafts

section Readers

variable
  {contents otherContents : Contents}
  {reader otherReader : Reader}
  (sameWord : ∀ {token other : Token}, paired token other → other.word = token.word)

namespace Contents

theorem paired_blank : blank.Paired paired blank where
  nesting := rfl
  draft := Draft.paired_blank
  last? := .none
  parameters := rfl

theorem Paired.note
    (pair : contents.Paired paired otherContents)
    (isPair : paired token other) :
    (contents.note token).Paired paired (otherContents.note other) :=
  { pair with last? := .some isPair }

theorem Paired.openType
    (pair : contents.Paired paired otherContents)
    (isPair : paired token other) :
    (contents.openType token).Paired paired (otherContents.openType other) :=
  { pair with draft := pair.draft.openType isPair }

theorem Paired.openDefault
    (pair : contents.Paired paired otherContents) :
    contents.openDefault.Paired paired otherContents.openDefault :=
  { pair with draft := pair.draft.openDefault }

include sameWord

/-- Tokens that say the same do the same. -/
theorem Paired.role_eq
    (pair : contents.Paired paired otherContents)
    (isPair : paired token other) :
    otherContents.role other = contents.role token := by
  have sameType : otherContents.draft.inType = contents.draft.inType :=
    isSome_eq_of_rel pair.draft.typeTokens?
  have sameDefault : otherContents.draft.inDefault = contents.draft.inDefault :=
    isSome_eq_of_rel pair.draft.defaultTokens?
  rw [role, role, Token.kind_eq_of_word_eq (sameWord isPair), sameType, sameDefault,
    pair.nesting]

theorem Paired.extend
    (pair : contents.Paired paired otherContents)
    (isPair : paired token other) :
    (contents.extend token).Paired paired (otherContents.extend other) :=
  { pair with
    nesting := by
      simp only [Contents.extend, Nesting.after, pair.nesting,
        Token.kind_eq_of_word_eq (sameWord isPair)]
    draft := pair.draft.append isPair }

theorem Paired.setName
    (pair : contents.Paired paired otherContents)
    (isPair : paired token other) :
    (contents.setName config token).Paired paired (otherContents.setName config other) :=
  { pair with draft := pair.draft.setName sameWord isPair }

theorem Paired.inStep_close
    (pair : contents.Paired paired otherContents) :
    InStep (Fault.Paired paired) (Contents.Paired paired)
      (contents.close config)
      (otherContents.close config) := by
  refine (pair.draft.inStep_parameter sameWord).map ?_
  rintro parameter _ rfl
  exact
    { nesting := pair.nesting
      draft := Draft.paired_blank
      last? := pair.last?
      parameters := by rw [pair.parameters] }

end Contents

namespace Reader

omit sameWord in
/-- An event that may not happen is refused in step, about the tokens noted last. -/
theorem Paired.inStep_fire
    {event : Event}
    {change otherChange : Contents → Except Fault Contents}
    (pair : Reader.Paired paired reader otherReader)
    (changes :
      InStep (Fault.Paired paired) (Contents.Paired paired)
        (change reader.contents)
        (otherChange otherReader.contents)) :
    InStep (Fault.Paired paired) (Reader.Paired paired)
      (fire reader event change)
      (fire otherReader event otherChange) := by
  rw [fire, fire, pair.state]
  exact
    Machine.Situation.Mirrors.inStep_fire pair
      (paired_blaming pair.contents.last? (fun _ => rfl) (fun _ _ => rfl))
      (fun _ _ => changes)

include sameWord

theorem Paired.inStep_close
    (pair : Reader.Paired paired reader otherReader) :
    InStep (Fault.Paired paired) (Reader.Paired paired)
      (close config reader)
      (close config otherReader) :=
  Paired.inStep_fire pair (pair.contents.inStep_close sameWord)

/-- Two tokens of a pair are taken in step, whatever they do. -/
theorem Paired.inStep_take
    (pair : Reader.Paired paired reader otherReader)
    (isPair : paired token other) :
    InStep (Fault.Paired paired) (Reader.Paired paired)
      (take config reader token)
      (take config otherReader other) := by
  -- The two tokens have one role, so both readers fire the same event, or none.
  rw [take, take, pair.contents.role_eq sameWord isPair]
  cases reader.contents.role token with
  | opensType => exact Paired.inStep_fire pair (.ok (pair.contents.openType isPair))
  | names => exact Paired.inStep_fire pair (.ok (pair.contents.setName sameWord isPair))
  | opensDefault => exact Paired.inStep_fire pair (.ok pair.contents.openDefault)
  | ends => exact Paired.inStep_close sameWord pair
  | continues => exact .ok (pair.update (pair.contents.extend sameWord isPair))

theorem Paired.inStep_step
    (pair : Reader.Paired paired reader otherReader)
    (isPair : paired token other) :
    InStep (Fault.Paired paired) (Reader.Paired paired)
      (step config reader token)
      (step config otherReader other) := by
  have sameKind := Token.kind_eq_of_word_eq (sameWord isPair)
  rw [step, step, Token.isSignificant, Token.isSignificant, sameKind]
  split
  · exact
      Paired.inStep_take sameWord (pair.update (pair.contents.note isPair)) isPair
  · exact .ok pair

theorem Paired.inStep_finish
    (pair : Reader.Paired paired reader otherReader) :
    InStep (Fault.Paired paired) (Reader.Paired paired)
      (finish config reader)
      (finish config otherReader) := by
  rw [finish, finish, pair.state]
  split
  · exact .ok pair
  · exact Paired.inStep_close sameWord pair

/-- Two lists of paired tokens are read in step. -/
theorem inStep_scan
    {tokens others : List Token}
    (pairs : List.Forall₂ paired tokens others) :
    Machine.Scan.InStep (Fault.Paired paired) (Reader.Paired paired)
      (scan config .start tokens)
      (scan config .start others) := by
  have atStart : Reader.Paired paired .start .start :=
    { state := rfl, moves := rfl, contents := Contents.paired_blank }
  exact
    (Machine.Scan.inStep_run (Paired.inStep_step sameWord) atStart pairs).andThen
      (Paired.inStep_finish sameWord)

end Reader

end Readers

end Words

/-- The words of a parameter list, which its layout and its comments are no part of. -/
def words (tokens : List Token) : List (Token.Kind × String) :=
  (tokens.filter Token.isSignificant).map Token.word

/-- Lists of the same words are read in step, with their tokens paired by their places. -/
theorem inStep_run_of_words_eq
    (config : Config)
    {tokens others : List Token}
    (same : words others = words tokens) :
    Machine.Run.InStep
      (Fault.Paired
        (Token.StandsAt
          (tokens.filter Token.isSignificant)
          (others.filter Token.isSignificant)))
      (run config tokens)
      (run config others) := by
  have scanned :
      Machine.Scan.InStep
        (Fault.Paired
          (Token.StandsAt
            (tokens.filter Token.isSignificant)
            (others.filter Token.isSignificant)))
        (Reader.Paired
          (Token.StandsAt
            (tokens.filter Token.isSignificant)
            (others.filter Token.isSignificant)))
        (Reader.scan config .start (tokens.filter Token.isSignificant))
        (Reader.scan config .start (others.filter Token.isSignificant)) :=
    Reader.inStep_scan (Token.StandsAt.word_eq same) (Token.forall₂_standsAt same)
  rw [scan_filter, scan_filter] at scanned
  exact Machine.Run.inStep_ofScan scanned Contents.Paired.parameters

/--
A parameter list is read by its words. Two lists of the same words lead to the same
phase with the same log. Either both are read, as the same parameters, or both are
refused, with the same error and message about the tokens at one index of the
significant tokens.
-/
theorem run_of_words_eq
    (config : Config)
    {tokens others : List Token}
    (same : words others = words tokens) :
    (run config others).state = (run config tokens).state ∧
      (run config others).log = (run config tokens).log ∧
        ((∃ parameters,
            (run config tokens).outcome = .ok parameters ∧
              (run config others).outcome = .ok parameters) ∨
          ∃ (index : Nat) (token other : Token) (error : ParseError),
            (tokens.filter Token.isSignificant)[index]? = some token ∧
              (others.filter Token.isSignificant)[index]? = some other ∧
                (run config tokens).outcome = .error (.unreadable error) ∧
                  error.token? = some token ∧
                    (run config others).outcome =
                        .error (.unreadable (error.about other)) ∧
                      (error.about other).message = error.message) := by
  have inStep := inStep_run_of_words_eq config same
  refine ⟨inStep.state, inStep.log_eq Event.name Phase.name "parameters", ?_⟩
  rcases inStep.outcome.cases with
    ⟨parameters, _, answers, otherAnswers, rfl⟩ |
      ⟨fault, otherFault, refuses, otherRefuses, pair⟩
  · exact .inl ⟨parameters, answers, otherAnswers⟩
  · cases pair with
    | @unreadable token other error stands shown =>
        have message := ParseError.message_about shown (stands.word_eq same)
        obtain ⟨index, isToken, isOther⟩ := stands
        exact
          .inr
            ⟨index, token, other, error, isToken, isOther, refuses, shown, otherRefuses,
              message⟩
    | noToken =>
        -- A reader that is refused has noted a token.
        obtain ⟨_, _, _, _, isFault, _⟩ := exists_blames_of_parameters refuses
        cases isFault

/-- An optional parameter with a wrong default, on one line. -/
def compactList : List Token :=
  [⟨.typeWord, "Optional", ⟨1, 1⟩⟩, ⟨.parameterName, "$path", ⟨1, 9⟩⟩,
    ⟨.equals, "=", ⟨1, 14⟩⟩, ⟨.other, "'", ⟨1, 15⟩⟩, ⟨.other, "/srv'", ⟨1, 16⟩⟩]

/-- The same words with comments and line ends between them, also in the default. -/
def strewnList : List Token :=
  [⟨.comment, " where", ⟨1, 1⟩⟩, ⟨.newline, "\n", ⟨1, 8⟩⟩,
    ⟨.typeWord, "Optional", ⟨2, 1⟩⟩, ⟨.whitespace, " ", ⟨2, 9⟩⟩,
    ⟨.parameterName, "$path", ⟨2, 10⟩⟩, ⟨.equals, "=", ⟨2, 16⟩⟩,
    ⟨.comment, " not here", ⟨2, 18⟩⟩, ⟨.newline, "\n", ⟨2, 28⟩⟩,
    ⟨.other, "'", ⟨3, 1⟩⟩, ⟨.newline, "\n", ⟨3, 2⟩⟩, ⟨.other, "/srv'", ⟨4, 1⟩⟩]

/-- Both lists are refused with one error and message, behind the same moves. -/
theorem run_of_words_eq_strewnList :
    words strewnList = words compactList ∧
      (run .standard strewnList).log = (run .standard compactList).log ∧
        ∃ error other,
          (run .standard compactList).outcome = .error (.unreadable error) ∧
            (run .standard strewnList).outcome =
                .error (.unreadable (error.about other)) ∧
              (error.about other).message = error.message := by
  have same : words strewnList = words compactList := rfl
  obtain
    ⟨_, sameLog,
      ⟨parameters, answers, _⟩ | ⟨_, _, other, error, _, _, refuses, _, otherRefuses, told⟩⟩ :=
    run_of_words_eq .standard same
  · cases answers
  · exact ⟨same, sameLog, error, other, refuses, otherRefuses, told⟩

end Signature

end DocAudit
