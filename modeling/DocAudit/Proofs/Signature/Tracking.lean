import DocAudit.Proofs.Machine.Scan
import DocAudit.Proofs.Signature.Derivation
import DocAudit.Proofs.Signature.Outcome
import DocAudit.Signature.Parser

namespace DocAudit.Signature

/-!
# The reader follows the grammar

A reader in the middle of a parameter list has read some fragment of an item.
Its phase and its draft are functions of that fragment, and one step of the
reader extends the fragment by one token, or closes the item at a separator, or
fails because neither is possible. Reading a whole list therefore succeeds
exactly when the list completes the fragment with acceptable items.
-/

namespace Fragment

/-- The phase of a reader that has read a fragment. -/
def phase : Fragment → Phase
  | .lead _ => .start
  | .typed _ _ => .awaitingName
  | .named _ => .awaitingDefault

/-- The draft of a reader that has read a fragment. -/
def draft (config : Config) : Fragment → Draft
  | .lead _ => .blank
  | .typed _ type =>
      { Draft.blank with typeTokens? := some (type.written.map Placed.token) }
  | .named item => item.draft config

end Fragment

/-- A reader has read a fragment at some depth, behind the items of some parameters. -/
structure Tracks
    (config : Config)
    (reader : Reader)
    (fragment : Fragment)
    (depth : Int)
    (found : List Parameter) : Prop where
  phase : reader.state = fragment.phase
  draft : reader.contents.draft = fragment.draft config
  depth : reader.contents.nesting.depth = depth
  found : reader.contents.parameters = found

theorem tracks_start (config : Config) :
    Tracks config Reader.start .blank 0 [] :=
  ⟨rfl, rfl, rfl, rfl⟩

/-- The role of a token depends on its letter and on what is open. -/
theorem Contents.role_eq
    (contents : Contents)
    {token : Token}
    (significant : token.isSignificant = true) :
    contents.role token =
      match Placed.letter ⟨token, contents.nesting.depth⟩ with
      | .typeWord =>
          if contents.draft.inDefault || contents.draft.inType then
            .continues
          else
            .opensType
      | .name => if contents.draft.inDefault then .continues else .names
      | .equals => if contents.draft.inDefault then .continues else .opensDefault
      | .separator => if contents.draft.inType then .continues else .ends
      | .filler => .continues := by
  rcases token with ⟨kind, text, position⟩
  cases kind with
  | comma =>
      by_cases balanced : contents.nesting.depth = 0 <;>
        simp [role, Placed.letter, Nesting.isNested, balanced]
  | comment => simp [Token.isSignificant, Token.Kind.isSignificant] at significant
  | newline =>
      simp [Token.isSignificant, Token.Kind.isSignificant,
        Token.Kind.isLayout] at significant
  | indent =>
      simp [Token.isSignificant, Token.Kind.isSignificant,
        Token.Kind.isLayout] at significant
  | whitespace =>
      simp [Token.isSignificant, Token.Kind.isSignificant,
        Token.Kind.isLayout] at significant
  | _ => rfl

/-- The role of a letter behind a fragment. -/
def Fragment.role : Fragment → Letter → Role
  | .typed _ _, .name => .names
  | .typed _ _, .equals => .opensDefault
  | .typed _ _, _ => .continues
  | .named ⟨_, _, _, _, some _⟩, .separator => .ends
  | .named ⟨_, _, _, _, some _⟩, _ => .continues
  | _, .typeWord => .opensType
  | _, .name => .names
  | _, .equals => .opensDefault
  | _, .separator => .ends
  | _, .filler => .continues

/-- The fragment that was read decides the role of the next token. -/
theorem Tracks.role_eq
    {config : Config}
    {reader : Reader}
    {fragment : Fragment}
    {depth : Int}
    {found : List Parameter}
    (tracks : Tracks config reader fragment depth found)
    {token : Token}
    (significant : token.isSignificant = true) :
    reader.contents.role token =
      fragment.role (Placed.letter ⟨token, depth⟩) := by
  rw [Contents.role_eq reader.contents significant, tracks.draft, tracks.depth]
  cases fragment with
  | lead words =>
      cases Placed.letter ⟨token, depth⟩ <;> rfl
  | typed front type =>
      cases Placed.letter ⟨token, depth⟩ <;> rfl
  | named item =>
      rcases item with ⟨front, type?, name, trail, default?⟩
      cases default? <;>
        cases Placed.letter ⟨token, depth⟩ <;>
          rfl

/-- Only filler changes the depth. -/
theorem depthChange_of_letter
    (word : Placed)
    (notFiller : word.letter ≠ .filler) :
    word.token.kind.depthChange = 0 := by
  rcases word with ⟨⟨kind, text, position⟩, depth⟩
  cases kind <;>
    simp_all [Placed.letter, Token.Kind.depthChange]

section Steps

variable
  {config : Config}
  {reader : Reader}
  {fragment next : Fragment}
  {token : Token}
  {depth : Int}
  {found : List Parameter}

/-- A significant token is noted and does what its role says. -/
theorem step_eq
    (significant : token.isSignificant = true)
    (role : Role) :
    reader.contents.role token = role →
    Reader.step config reader token =
      match role with
      | .opensType =>
          Reader.fire (reader.update fun contents => contents.note token) .gotType
            fun contents => .ok (contents.openType token)
      | .names =>
          Reader.fire (reader.update fun contents => contents.note token) .gotName
            fun contents => .ok (contents.setName config token)
      | .opensDefault =>
          Reader.fire (reader.update fun contents => contents.note token) .gotEquals
            fun contents => .ok contents.openDefault
      | .ends =>
          Reader.close config (reader.update fun contents => contents.note token)
      | .continues =>
          .ok (reader.update fun contents => (contents.note token).extend token) := by
  rintro rfl
  simp only [Reader.step, significant, if_true, Reader.take]
  rfl

/-- A token that continues what is open is appended to the draft. -/
theorem step_of_continues
    (tracks : Tracks config reader fragment depth found)
    (significant : token.isSignificant = true)
    (continues : reader.contents.role token = .continues)
    (samePhase : next.phase = fragment.phase)
    (appended : next.draft config = (fragment.draft config).append token) :
    ∃ after,
      Reader.step config reader token = .ok after ∧
        Tracks config after next (depth + token.kind.depthChange) found := by
  refine
    ⟨reader.update fun contents => (contents.note token).extend token, ?_, ?_⟩
  · exact step_eq significant .continues continues
  · exact
      { phase := tracks.phase.trans samePhase.symm
        draft := by
          rw [appended, ← tracks.draft]
          rfl
        depth := congrArg (· + token.kind.depthChange) tracks.depth
        found := tracks.found }

/-- An event that may happen in the phase of a fragment moves the reader on. -/
theorem fire_of_get?
    {event : Event}
    {change : Contents → Contents}
    (tracks : Tracks config reader fragment depth found)
    (level : token.kind.depthChange = 0)
    (allowed : table.get? (fragment.phase, event) = some next.phase)
    (sameDraft : (change (reader.contents.note token)).draft = next.draft config)
    (sameNesting :
      (change (reader.contents.note token)).nesting = reader.contents.nesting)
    (sameFound :
      (change (reader.contents.note token)).parameters =
        reader.contents.parameters) :
    ∃ after,
      Reader.fire (reader.update fun contents => contents.note token) event
          (fun contents => .ok (change contents)) =
          .ok after ∧
        Tracks config after next (depth + token.kind.depthChange) found := by
  refine
    ⟨{ state := next.phase
       moves := reader.moves ++ [⟨event, reader.state, next.phase⟩]
       contents := change (reader.contents.note token) }, ?_, ?_⟩
  · simp only [Reader.fire, Machine.Situation.fire, Machine.Situation.update,
      tracks.phase, allowed]
  · exact
      { phase := rfl
        draft := sameDraft
        depth := by
          rw [level, Int.add_zero, sameNesting]
          exact tracks.depth
        found := sameFound.trans tracks.found }

/-- An event that may not happen in the phase of a fragment stops the reader. -/
theorem fire_of_get?_eq_none
    {event : Event}
    {change : Contents → Except Fault Contents}
    (phase : reader.state = fragment.phase)
    (refused : table.get? (fragment.phase, event) = none) :
    Reader.fire reader event change =
      .error
        (.blaming reader.contents.last? fun token =>
          .unexpectedToken token fragment.phase.name) := by
  simp only [Reader.fire, Machine.Situation.fire, phase, refused]

/-- Where a name is awaited nothing can be closed. -/
theorem close_of_typed
    {front : List Placed}
    {type : Part}
    (tracks : Tracks config reader (.typed front type) depth found) :
    Reader.close config reader =
      .error
        (.blaming reader.contents.last? fun token =>
          .unexpectedToken token Phase.awaitingName.name) :=
  fire_of_get?_eq_none tracks.phase rfl

theorem step_lead
    {words : List Placed}
    (tracks : Tracks config reader (.lead words) depth found)
    (significant : token.isSignificant = true)
    (extended : Fragment.extend? (.lead words) ⟨token, depth⟩ = some next) :
    ∃ after,
      Reader.step config reader token = .ok after ∧
        Tracks config after next (depth + token.kind.depthChange) found := by
  have roleShape := tracks.role_eq significant
  have level := depthChange_of_letter ⟨token, depth⟩
  cases letter : Placed.letter ⟨token, depth⟩ with
  | filler =>
      simp only [Fragment.extend?, letter, Option.some.injEq] at extended
      subst next
      rw [letter] at roleShape
      exact step_of_continues tracks significant roleShape rfl rfl
  | typeWord =>
      simp only [Fragment.extend?, letter, Option.some.injEq] at extended
      subst next
      rw [letter] at roleShape
      rw [step_eq significant .opensType roleShape]
      apply fire_of_get? tracks (level (by simp [letter])) rfl _ rfl rfl
      exact congrArg (fun draft => draft.openType token) tracks.draft
  | name =>
      simp only [Fragment.extend?, letter, Option.some.injEq] at extended
      subst next
      rw [letter] at roleShape
      rw [step_eq significant .names roleShape]
      apply fire_of_get? tracks (level (by simp [letter])) rfl _ rfl rfl
      exact congrArg (fun draft => Draft.setName config draft token) tracks.draft
  | equals => simp [Fragment.extend?, letter] at extended
  | separator => simp [Fragment.extend?, letter] at extended

theorem step_typed
    {front : List Placed}
    {type : Part}
    (tracks : Tracks config reader (.typed front type) depth found)
    (significant : token.isSignificant = true)
    (extended : Fragment.extend? (.typed front type) ⟨token, depth⟩ = some next) :
    ∃ after,
      Reader.step config reader token = .ok after ∧
        Tracks config after next (depth + token.kind.depthChange) found := by
  have roleShape := tracks.role_eq significant
  have level := depthChange_of_letter ⟨token, depth⟩
  by_cases named : Placed.letter ⟨token, depth⟩ = .name
  · simp only [Fragment.extend?, named, Option.some.injEq] at extended
    subst next
    rw [named] at roleShape
    rw [step_eq significant .names roleShape]
    apply fire_of_get? tracks (level (by simp [named])) rfl _ rfl rfl
    exact congrArg (fun draft => Draft.setName config draft token) tracks.draft
  · by_cases opensDefault : Placed.letter ⟨token, depth⟩ = .equals
    · simp [Fragment.extend?, opensDefault] at extended
    · rw [Fragment.extend?_of_typed front type named opensDefault] at extended
      cases extended
      have continues : reader.contents.role token = .continues := by
        rw [roleShape]
        cases letter : Placed.letter ⟨token, depth⟩ with
        | name => exact (named letter).elim
        | equals => exact (opensDefault letter).elim
        | _ => rfl
      refine step_of_continues tracks significant continues rfl ?_
      simp [Fragment.draft, Draft.append, Draft.blank, Part.push, Part.written]

theorem step_trail
    {lead : List Placed}
    {type? : Option Part}
    {name : Placed}
    {trail : List Placed}
    {longer : Item}
    (tracks : Tracks config reader (.named ⟨lead, type?, name, trail, none⟩) depth found)
    (significant : token.isSignificant = true)
    (extended :
      Item.extend? ⟨lead, type?, name, trail, none⟩ ⟨token, depth⟩ = some longer) :
    ∃ after,
      Reader.step config reader token = .ok after ∧
        Tracks config after (.named longer) (depth + token.kind.depthChange) found := by
  have roleShape := tracks.role_eq significant
  have level := depthChange_of_letter ⟨token, depth⟩
  cases letter : Placed.letter ⟨token, depth⟩ with
  | filler =>
      simp only [Item.extend?, letter, Option.some.injEq] at extended
      subst longer
      rw [letter] at roleShape
      exact step_of_continues tracks significant roleShape rfl rfl
  | equals =>
      simp only [Item.extend?, letter, Option.some.injEq] at extended
      subst longer
      rw [letter] at roleShape
      rw [step_eq significant .opensDefault roleShape]
      apply fire_of_get? tracks (level (by simp [letter])) rfl _ rfl rfl
      exact congrArg Draft.openDefault tracks.draft
  | typeWord => simp [Item.extend?, letter] at extended
  | name => simp [Item.extend?, letter] at extended
  | separator => simp [Item.extend?, letter] at extended

theorem step_default
    {lead : List Placed}
    {type? : Option Part}
    {name : Placed}
    {trail : List Placed}
    {part : Part}
    {longer : Item}
    (tracks :
      Tracks config reader (.named ⟨lead, type?, name, trail, some part⟩) depth found)
    (significant : token.isSignificant = true)
    (extended :
      Item.extend? ⟨lead, type?, name, trail, some part⟩ ⟨token, depth⟩ =
        some longer) :
    ∃ after,
      Reader.step config reader token = .ok after ∧
        Tracks config after (.named longer) (depth + token.kind.depthChange) found := by
  by_cases separates : Placed.letter ⟨token, depth⟩ = .separator
  · rw [Item.extend?_of_separator separates] at extended
    cases extended
  · rw [Item.extend?_of_default lead type? name trail part separates] at extended
    cases extended
    have continues : reader.contents.role token = .continues := by
      rw [tracks.role_eq significant]
      cases letter : Placed.letter ⟨token, depth⟩ with
      | separator => exact (separates letter).elim
      | _ => rfl
    refine step_of_continues tracks significant continues rfl ?_
    simp [Fragment.draft, Item.draft, Item.typeWords, Draft.append, Part.push]

/-- A token that extends the fragment is taken, and the reader goes on from there. -/
theorem step_extend
    (tracks : Tracks config reader fragment depth found)
    (significant : token.isSignificant = true)
    (extended : fragment.extend? ⟨token, depth⟩ = some next) :
    ∃ after,
      Reader.step config reader token = .ok after ∧
        Tracks config after next (depth + token.kind.depthChange) found := by
  cases fragment with
  | lead words => exact step_lead tracks significant extended
  | typed front type => exact step_typed tracks significant extended
  | named item =>
      rcases item with ⟨lead, type?, name, trail, default?⟩
      obtain ⟨longer, extendedItem, rfl⟩ := Option.map_eq_some_iff.mp extended
      cases default? with
      | none => exact step_trail tracks significant extendedItem
      | some part => exact step_default tracks significant extendedItem

theorem Tracks.note
    (tracks : Tracks config reader fragment depth found)
    (token : Token) :
    Tracks config (reader.update fun contents => contents.note token) fragment depth
      found :=
  ⟨tracks.phase, tracks.draft, tracks.depth, tracks.found⟩

/-- Behind a name a separator ends the item. -/
theorem step_of_ends
    {item : Item}
    (tracks : Tracks config reader (.named item) depth found)
    (significant : token.isSignificant = true)
    (separates : Placed.letter ⟨token, depth⟩ = .separator) :
    Reader.step config reader token =
      Reader.close config (reader.update fun contents => contents.note token) := by
  have ends : reader.contents.role token = .ends := by
    rw [tracks.role_eq significant, separates]
    rcases item with ⟨front, type?, name, trail, default?⟩
    cases default? <;> rfl
  exact step_eq significant .ends ends

/-- A token that neither extends the fragment nor ends an item stops the reader. -/
theorem step_stuck
    (tracks : Tracks config reader fragment depth found)
    (significant : token.isSignificant = true)
    (stuck : fragment.extend? ⟨token, depth⟩ = none)
    (noEnd :
      ∀ item,
        fragment = .named item → Placed.letter ⟨token, depth⟩ ≠ .separator) :
    Reader.step config reader token =
      .error (.unreadable (.unexpectedToken token fragment.phase.name)) := by
  have roleShape := tracks.role_eq significant
  have phase := tracks.phase
  cases fragment with
  | lead words =>
      cases letter : Placed.letter ⟨token, depth⟩ with
      | equals =>
          rw [step_eq significant .opensDefault (by rw [roleShape, letter]; rfl)]
          exact fire_of_get?_eq_none phase rfl
      | separator =>
          rw [step_eq significant .ends (by rw [roleShape, letter]; rfl)]
          exact fire_of_get?_eq_none phase rfl
      | _ => simp [Fragment.extend?, letter] at stuck
  | typed front type =>
      cases letter : Placed.letter ⟨token, depth⟩ with
      | equals =>
          rw [step_eq significant .opensDefault (by rw [roleShape, letter]; rfl)]
          exact fire_of_get?_eq_none phase rfl
      | _ => simp [Fragment.extend?, letter] at stuck
  | named item =>
      have notSeparator := noEnd item rfl
      rcases item with ⟨front, type?, name, trail, default?⟩
      cases default? with
      | none =>
          cases letter : Placed.letter ⟨token, depth⟩ with
          | typeWord =>
              rw [step_eq significant .opensType (by rw [roleShape, letter]; rfl)]
              exact fire_of_get?_eq_none phase rfl
          | name =>
              rw [step_eq significant .names (by rw [roleShape, letter]; rfl)]
              exact fire_of_get?_eq_none phase rfl
          | separator => exact (notSeparator letter).elim
          | _ => simp [Fragment.extend?, Item.extend?, letter] at stuck
      | some part =>
          cases letter : Placed.letter ⟨token, depth⟩ with
          | separator => exact (notSeparator letter).elim
          | _ => simp [Fragment.extend?, Item.extend?, letter] at stuck

/-- A significant token extends the fragment, ends its item, or stops the reader. -/
theorem step_cases
    (tracks : Tracks config reader fragment depth found)
    (significant : token.isSignificant = true) :
    (∃ longer after,
        fragment.extend? ⟨token, depth⟩ = some longer ∧
          Reader.step config reader token = .ok after ∧
            Tracks config after longer (depth + token.kind.depthChange) found) ∨
      (∃ item,
          fragment = .named item ∧
            Placed.letter ⟨token, depth⟩ = .separator ∧
              Reader.step config reader token =
                Reader.close config (reader.update fun contents => contents.note token)) ∨
        (fragment.extend? ⟨token, depth⟩ = none ∧
          (∀ item,
              fragment = .named item → Placed.letter ⟨token, depth⟩ ≠ .separator) ∧
            Reader.step config reader token =
              .error (.unreadable (.unexpectedToken token fragment.phase.name))) := by
  cases extended : fragment.extend? ⟨token, depth⟩ with
  | some longer =>
      obtain ⟨after, stepped, afterTracks⟩ := step_extend tracks significant extended
      exact .inl ⟨longer, after, rfl, stepped, afterTracks⟩
  | none =>
      by_cases ends :
          ∃ item, fragment = .named item ∧ Placed.letter ⟨token, depth⟩ = .separator
      · obtain ⟨item, rfl, separates⟩ := ends
        exact .inr (.inl ⟨item, rfl, separates, step_of_ends tracks significant separates⟩)
      · have noEnd :
            ∀ item,
              fragment = .named item → Placed.letter ⟨token, depth⟩ ≠ .separator :=
          fun item shape separates => ends ⟨item, shape, separates⟩
        exact .inr (.inr ⟨rfl, noEnd, step_stuck tracks significant extended noEnd⟩)

theorem close_of_acceptable
    {item : Item}
    (tracks : Tracks config reader (.named item) depth found)
    (acceptable : item.Acceptable config) :
    ∃ after,
      Reader.close config reader = .ok after ∧
        Tracks config after .blank depth (found ++ [item.parameter config]) := by
  have made := Draft.parameter_eq_record
    ((Item.hasWrongDefault_draft_eq_false_iff config item).mpr acceptable)
  have closed :
      reader.contents.close config =
        .ok
          { reader.contents with
            draft := .blank
            parameters := reader.contents.parameters ++ [item.parameter config] } := by
    rw [Contents.close, tracks.draft, Fragment.draft, made]
    rfl
  have allowed :
      table.get? (reader.state, .gotEnd) = some .start := by
    rw [tracks.phase]
    rfl
  refine
    ⟨{ state := .start
       moves := reader.moves ++ [⟨.gotEnd, reader.state, .start⟩]
       contents :=
        { reader.contents with
          draft := .blank
          parameters := reader.contents.parameters ++ [item.parameter config] } },
      ?_, ?_⟩
  · simp only [Reader.close, Reader.fire, Machine.Situation.fire, allowed, closed]
  · exact
      { phase := rfl
        draft := rfl
        depth := tracks.depth
        found := congrArg (· ++ [item.parameter config]) tracks.found }

/-- An item with a wrong default cannot be closed; its default is to blame. -/
theorem close_of_not_acceptable
    {item : Item}
    (tracks : Tracks config reader (.named item) depth found)
    (notAcceptable : ¬ item.Acceptable config) :
    ∃ first rest,
      item.defaultWords = first :: rest ∧
        Reader.close config reader =
          .error
            (.unreadable
              (.optionalDefault first.token (textOf item.defaultWords)
                config.nullDefault)) := by
  obtain ⟨first, rest, given⟩ := Item.exists_defaultWords notAcceptable
  have wrong : (item.draft config).hasWrongDefault config = true := by
    rw [← Bool.not_eq_false]
    rwa [Item.hasWrongDefault_draft_eq_false_iff config item]
  have failed := Draft.parameter_eq_error wrong
  rw [Item.defaultTokens_draft, Item.defaultText_draft, given] at failed
  have closed :
      reader.contents.close config =
        .error
          (.unreadable
            (.optionalDefault first.token (textOf item.defaultWords)
              config.nullDefault)) := by
    rw [Contents.close, tracks.draft, Fragment.draft, failed, given]
    rfl
  have allowed :
      table.get? (reader.state, .gotEnd) = some .start := by
    rw [tracks.phase]
    rfl
  refine ⟨first, rest, given, ?_⟩
  simp only [Reader.close, Reader.fire, Machine.Situation.fire, allowed, closed]

/-- An item that was closed is acceptable, and its parameter is found behind it. -/
theorem tracks_of_close
    {item : Item}
    {after : Reader}
    (tracks : Tracks config reader (.named item) depth found)
    (closes : Reader.close config reader = .ok after) :
    item.Acceptable config ∧
      Tracks config after .blank depth (found ++ [item.parameter config]) := by
  by_cases acceptable : item.Acceptable config
  · obtain ⟨closed, closesHere, closedTracks⟩ := close_of_acceptable tracks acceptable
    obtain rfl : closed = after := Except.ok.inj (closesHere.symm.trans closes)
    exact ⟨acceptable, closedTracks⟩
  · obtain ⟨_, _, _, failed⟩ := close_of_not_acceptable tracks acceptable
    rw [failed] at closes
    cases closes

theorem step_of_not_significant
    (layout : ¬ token.isSignificant = true) :
    Reader.step config reader token = .ok reader := by
  simp [Reader.step, layout]

theorem depthChange_of_not_significant
    (layout : ¬ token.isSignificant = true) :
    token.kind.depthChange = 0 := by
  rcases token with ⟨kind, text, position⟩
  cases kind <;>
    simp_all [Token.isSignificant, Token.Kind.isSignificant, Token.Kind.isLayout,
      Token.Kind.depthChange]

/-- Behind every token that is read, some fragment is. -/
theorem tracks_of_step
    {after : Reader}
    (tracks : Tracks config reader fragment depth found)
    (steps : Reader.step config reader token = .ok after) :
    ∃ afterFragment afterFound,
      Tracks config after afterFragment (depth + token.kind.depthChange) afterFound := by
  by_cases significant : token.isSignificant = true
  · rcases step_cases tracks significant with
      ⟨longer, extended, _, stepped, extendedTracks⟩ | ⟨item, rfl, separates, stepped⟩ |
        ⟨_, _, failed⟩
    · obtain rfl : extended = after := Except.ok.inj (stepped.symm.trans steps)
      exact ⟨longer, found, extendedTracks⟩
    · have level := depthChange_of_letter ⟨token, depth⟩ (by simp [separates])
      obtain ⟨_, afterTracks⟩ :=
        tracks_of_close (tracks.note token) (stepped.symm.trans steps)
      simp only [level, Int.add_zero]
      exact ⟨_, _, afterTracks⟩
    · rw [failed] at steps
      cases steps
  · obtain rfl : reader = after :=
      Except.ok.inj ((step_of_not_significant significant).symm.trans steps)
    rw [depthChange_of_not_significant significant, Int.add_zero]
    exact ⟨fragment, found, tracks⟩

/-- A reader without fault has read some fragment, at the depth of its tokens. -/
theorem tracks_of_run
    {last : Reader}
    {tokens : List Token}
    (tracks : Tracks config reader fragment depth found)
    (runs : Machine.Scan.run (Reader.step config) reader tokens = .finished last) :
    ∃ lastFragment lastFound,
      Tracks config last lastFragment (depth + netOpened tokens) lastFound := by
  induction tokens generalizing reader fragment depth found with
  | nil =>
      cases runs
      exact ⟨fragment, found, by simpa [netOpened] using tracks⟩
  | cons token rest inductionHypothesis =>
      obtain ⟨after, steps, runsOn⟩ := Machine.Scan.run_cons_eq_finished_iff.mp runs
      obtain ⟨_, _, afterTracks⟩ := tracks_of_step tracks steps
      rw [netOpened_cons, ← Int.add_assoc]
      exact inductionHypothesis afterTracks runsOn

/-- Where a default may follow, an item was read up to its name at least. -/
theorem Tracks.exists_item
    (tracks : Tracks config reader fragment depth found)
    (isOpen : reader.state = .awaitingDefault) :
    ∃ item, fragment = .named item := by
  have phase := tracks.phase
  rw [isOpen] at phase
  cases fragment with
  | lead words => cases phase
  | typed front type => cases phase
  | named item => exact ⟨item, rfl⟩

end Steps

end DocAudit.Signature
