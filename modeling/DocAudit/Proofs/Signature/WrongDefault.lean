import DocAudit.Proofs.Signature.Acceptance

namespace DocAudit.Signature

/-!
# The first wrong default

The default of an optional item is looked at when the item is closed, so the item
that is reported is the first one that has a wrong default, provided that a
reader comes to its end. It does when the list up to there is a parameter list of
its own, and a separator or nothing follows. The report carries the first token
of the default and the text of all its tokens.
-/

/--
The first item with a wrong default: a list ends with it, as a parameter list in
which all items in front of it are acceptable, where a separator follows or
nothing does.
-/
def FirstWrong
    (config : Config)
    (words : List Placed)
    (item : Item) : Prop :=
  ∃ front rest earlier,
    words = front ++ rest ∧
      Listed front (earlier ++ [item]) ∧
        (∀ word ∈ rest.head?, word.letter = .separator) ∧
          (∀ other ∈ earlier, other.Acceptable config) ∧ ¬ item.Acceptable config

/-- What a report on the default of an item carries. -/
structure Item.Reported
    (config : Config)
    (item : Item)
    (token : Token)
    (text null : String) : Prop where
  first : item.defaultWords.head?.map Placed.token = some token
  text : text = textOf item.defaultWords
  null : null = config.nullDefault

/-- The item with a wrong default that the words behind a fragment close first. -/
inductive Spoils (config : Config) : Fragment → List Placed → Item → Prop where
  | atEnd
      {item : Item} :
      ¬ item.Acceptable config →
      Spoils config (.named item) [] item
  | atSeparator
      {item : Item}
      {comma : Placed}
      {rest : List Placed} :
      comma.letter = .separator →
      ¬ item.Acceptable config →
      Spoils config (.named item) (comma :: rest) item
  | extend
      {fragment next : Fragment}
      {word : Placed}
      {rest : List Placed}
      {item : Item} :
      fragment.extend? word = some next →
      Spoils config next rest item →
      Spoils config fragment (word :: rest) item
  | close
      {earlier item : Item}
      {comma : Placed}
      {rest : List Placed} :
      comma.letter = .separator →
      earlier.Acceptable config →
      Spoils config .blank rest item →
      Spoils config (.named earlier) (comma :: rest) item

namespace Spoils

variable
  {config : Config}
  {fragment next : Fragment}
  {word comma : Placed}
  {front rest words : List Placed}
  {item other : Item}
  {earlier : List Item}

/-- Behind the last word only an item that has its name is closed. -/
theorem nil_iff :
    Spoils config fragment [] item ↔
      fragment = .named item ∧ ¬ item.Acceptable config := by
  constructor
  · intro spoils
    cases spoils with
    | atEnd wrong => exact ⟨rfl, wrong⟩
  · rintro ⟨rfl, wrong⟩
    exact .atEnd wrong

theorem extend_iff
    (extended : fragment.extend? word = some next) :
    Spoils config fragment (word :: rest) item ↔ Spoils config next rest item := by
  constructor
  · intro spoils
    cases spoils with
    | extend again later =>
        rw [extended] at again
        cases again
        exact later
    | atSeparator separates _ =>
        simp [Fragment.extend?, Item.extend?_of_separator separates] at extended
    | close separates _ _ =>
        simp [Fragment.extend?, Item.extend?_of_separator separates] at extended
  · exact .extend extended

/-- At a separator the item in front of it is the one, or the one comes later. -/
theorem close_iff
    (separates : comma.letter = .separator) :
    Spoils config (.named other) (comma :: rest) item ↔
      ¬ other.Acceptable config ∧ item = other ∨
        other.Acceptable config ∧ Spoils config .blank rest item := by
  constructor
  · intro spoils
    cases spoils with
    | atSeparator _ wrong => exact .inl ⟨wrong, rfl⟩
    | extend extended later =>
        simp [Fragment.extend?, Item.extend?_of_separator separates] at extended
    | close _ acceptable later => exact .inr ⟨acceptable, later⟩
  · rintro (⟨wrong, rfl⟩ | ⟨acceptable, later⟩)
    · exact .atSeparator separates wrong
    · exact .close separates acceptable later

/-- A token that neither extends the fragment nor ends an item closes nothing. -/
theorem not_of_stuck
    (stuck : fragment.extend? word = none)
    (noEnd : ∀ item, fragment = .named item → word.letter ≠ .separator) :
    ¬ Spoils config fragment (word :: rest) item := by
  intro spoils
  cases spoils with
  | atSeparator separates _ => exact noEnd _ rfl separates
  | extend extended later =>
      rw [stuck] at extended
      cases extended
  | close separates _ _ => exact noEnd _ rfl separates

/-- The words behind a fragment close one wrong item first. -/
theorem unique
    (spoils : Spoils config fragment words item)
    (again : Spoils config fragment words other) :
    other = item := by
  induction spoils with
  | atEnd _ =>
      cases again
      rfl
  | atSeparator separates wrong =>
      rcases (close_iff separates).mp again with ⟨_, same⟩ | ⟨acceptable, _⟩
      · exact same
      · exact (wrong acceptable).elim
  | extend extended _ inductionHypothesis =>
      exact inductionHypothesis ((extend_iff extended).mp again)
  | close separates acceptable _ inductionHypothesis =>
      rcases (close_iff separates).mp again with ⟨wrong, _⟩ | ⟨_, later⟩
      · exact (wrong acceptable).elim
      · exact inductionHypothesis later

/-- An item that completes a fragment last, behind acceptable ones, is the one if it is wrong. -/
theorem of_completes
    (completes : Completes fragment front (earlier ++ [item]))
    (bounded : ∀ word ∈ rest.head?, word.letter = .separator)
    (acceptable : ∀ other ∈ earlier, other.Acceptable config)
    (wrong : ¬ item.Acceptable config) :
    Spoils config fragment (front ++ rest) item := by
  generalize split : earlier ++ [item] = items at completes
  induction completes generalizing earlier with
  | filler => simp at split
  | @item last =>
      obtain ⟨rfl, rfl⟩ : earlier = [] ∧ item = last := by
        simpa [List.append_eq_singleton_iff] using split
      cases rest with
      | nil => exact .atEnd wrong
      | cons comma more => exact .atSeparator (bounded comma rfl) wrong
  | extend extended _ inductionHypothesis =>
      exact .extend extended (inductionHypothesis acceptable split)
  | @close closed comma more items separates _ inductionHypothesis =>
      cases earlier with
      | nil =>
          obtain ⟨rfl, rfl⟩ : item = closed ∧ items = [] := by simpa using split
          exact .atSeparator separates wrong
      | cons first others =>
          obtain ⟨rfl, later⟩ : first = closed ∧ others ++ [item] = items := by
            simpa using split
          obtain ⟨here, behind⟩ := List.forall_mem_cons.mp acceptable
          exact .close separates here (inductionHypothesis behind later)

theorem exists_completes
    (spoils : Spoils config fragment words item) :
    ∃ front rest earlier,
      words = front ++ rest ∧
        Completes fragment front (earlier ++ [item]) ∧
          (∀ word ∈ rest.head?, word.letter = .separator) ∧
            (∀ other ∈ earlier, other.Acceptable config) ∧ ¬ item.Acceptable config := by
  induction spoils with
  | atEnd wrong => exact ⟨[], [], [], rfl, .item, by simp, by simp, wrong⟩
  | @atSeparator item comma rest separates wrong =>
      exact ⟨[], comma :: rest, [], rfl, .item, by simpa using separates, by simp, wrong⟩
  | @extend fragment next word rest item extended _ inductionHypothesis =>
      obtain ⟨front, behind, earlier, rfl, completes, bounded, acceptable, wrong⟩ :=
        inductionHypothesis
      exact
        ⟨word :: front, behind, earlier, rfl, .extend extended completes, bounded,
          acceptable, wrong⟩
  | @close closed item comma rest separates here _ inductionHypothesis =>
      obtain ⟨front, behind, earlier, rfl, completes, bounded, acceptable, wrong⟩ :=
        inductionHypothesis
      exact
        ⟨comma :: front, behind, closed :: earlier, rfl, .close separates completes,
          bounded, List.forall_mem_cons.mpr ⟨here, acceptable⟩, wrong⟩

end Spoils

/-- The first wrong item of a list is the one that the list closes first. -/
theorem firstWrong_iff_spoils
    {config : Config}
    {words : List Placed}
    {item : Item} :
    FirstWrong config words item ↔ Spoils config .blank words item := by
  constructor
  · rintro ⟨front, rest, earlier, rfl, listed, bounded, acceptable, wrong⟩
    exact .of_completes listed.completes bounded acceptable wrong
  · intro spoils
    obtain ⟨front, rest, earlier, split, completes, bounded, acceptable, wrong⟩ :=
      spoils.exists_completes
    exact
      ⟨front, rest, earlier, split, Listed.iff_completes.mpr completes, bounded,
        acceptable, wrong⟩

section Reports

variable
  {config : Config}
  {reader : Reader}
  {fragment : Fragment}
  {depth : Int}
  {found : List Parameter}
  {tokens : List Token}
  {token : Token}
  {text null : String}

theorem close_eq_wrongDefault_iff
    {item : Item}
    (tracks : Tracks config reader (.named item) depth found)
    (wrong : ¬ item.Acceptable config) :
    Reader.close config reader =
        .error (.unreadable (.optionalDefault token text null)) ↔
      item.Reported config token text null := by
  obtain ⟨first, rest, given, failed⟩ := close_of_not_acceptable tracks wrong
  rw [failed]
  constructor
  · intro same
    cases same
    refine ⟨?_, rfl, rfl⟩
    rw [given]
    rfl
  · rintro ⟨isFirst, rfl, rfl⟩
    rw [given] at isFirst
    cases isFirst
    rfl

/-- Behind the last token a wrong default is reported when its item is still open. -/
theorem outcome_scan_nil_eq_wrongDefault_iff
    (tracks : Tracks config reader fragment depth found) :
    (Reader.scan config reader []).outcome (fun last => last.contents.parameters) =
        .error (.unreadable (.optionalDefault token text null)) ↔
      ∃ item, Spoils config fragment [] item ∧ item.Reported config token text null := by
  rw [Reader.scan, Machine.Scan.outcome_run_nil, map_eq_error_iff]
  simp only [Spoils.nil_iff]
  cases fragment with
  | lead words =>
      have phase : reader.state = .start := tracks.phase
      rw [Reader.finish, if_pos phase]
      simp
  | typed front type =>
      have phase : reader.state = .awaitingName := tracks.phase
      rw [Reader.finish, if_neg (by rw [phase]; decide), close_of_typed tracks]
      cases reader.contents.last? <;> simp [Fault.blaming]
  | named item =>
      have phase : reader.state = .awaitingDefault := tracks.phase
      rw [Reader.finish, if_neg (by rw [phase]; decide)]
      by_cases acceptable : item.Acceptable config
      · obtain ⟨after, closed, _⟩ := close_of_acceptable tracks acceptable
        rw [closed]
        simp [acceptable]
      · rw [close_eq_wrongDefault_iff tracks acceptable]
        constructor
        · intro reported
          exact ⟨item, ⟨rfl, acceptable⟩, reported⟩
        · rintro ⟨_, ⟨⟨rfl⟩, _⟩, reported⟩
          exact reported

/-- A reader reports a wrong default exactly when the tokens close a wrong item first. -/
theorem outcome_scan_eq_wrongDefault_iff
    (tracks : Tracks config reader fragment depth found)
    (significant : ∀ token ∈ tokens, token.isSignificant = true) :
    (Reader.scan config reader tokens).outcome (fun last => last.contents.parameters) =
        .error (.unreadable (.optionalDefault token text null)) ↔
      ∃ item,
        Spoils config fragment (placedFrom depth tokens) item ∧
          item.Reported config token text null := by
  induction tokens generalizing reader fragment depth found with
  | nil => exact outcome_scan_nil_eq_wrongDefault_iff tracks
  | cons next rest inductionHypothesis =>
      obtain ⟨atHead, inRest⟩ := List.forall_mem_cons.mp significant
      rw [Reader.scan, Machine.Scan.outcome_run_cons, placedFrom]
      simp only [Reader.scan] at inductionHypothesis
      rcases step_cases tracks atHead with
        ⟨longer, after, extended, stepped, afterTracks⟩ |
          ⟨item, rfl, separates, stepped⟩ | ⟨stuck, noEnd, failed⟩
      · rw [stepped, Except.bind]
        simp only [Spoils.extend_iff extended]
        exact inductionHypothesis afterTracks inRest
      · simp only [Spoils.close_iff separates]
        rw [stepped]
        have level := depthChange_of_letter ⟨next, depth⟩ (by simp [separates])
        simp only [level, Int.add_zero]
        by_cases acceptable : item.Acceptable config
        · obtain ⟨after, closed, afterTracks⟩ :=
            close_of_acceptable (tracks.note next) acceptable
          rw [closed, Except.bind, inductionHypothesis afterTracks inRest]
          simp [acceptable]
        · obtain ⟨_, _, _, failed⟩ :=
            close_of_not_acceptable (tracks.note next) acceptable
          have reported_iff :
              Reader.close config (reader.update fun contents => contents.note next) =
                  .error (.unreadable (.optionalDefault token text null)) ↔
                item.Reported config token text null :=
            close_eq_wrongDefault_iff (tracks.note next) acceptable
          rw [failed] at reported_iff ⊢
          simpa [acceptable, Except.bind] using reported_iff
      · rw [failed, Except.bind]
        constructor
        · intro same
          cases same
        · rintro ⟨item, spoils, _⟩
          exact (Spoils.not_of_stuck stuck noEnd spoils).elim

/--
A wrong default is reported exactly when the list has a first item with a wrong
default, and the report is about that item.
-/
theorem parameters_eq_wrongDefault_iff :
    parameters config tokens =
        .error (.unreadable (.optionalDefault token text null)) ↔
      ∃ item,
        FirstWrong config (placed (tokens.filter Token.isSignificant)) item ∧
          item.Reported config token text null := by
  have significant :
      ∀ token ∈ tokens.filter Token.isSignificant, token.isSignificant = true :=
    fun _ member => (List.mem_filter.mp member).2
  rw [← parameters_filter, parameters_eq_outcome,
    outcome_scan_eq_wrongDefault_iff (tracks_start config) significant,
    placed_eq_placedFrom]
  simp only [firstWrong_iff_spoils]

end Reports

end DocAudit.Signature
