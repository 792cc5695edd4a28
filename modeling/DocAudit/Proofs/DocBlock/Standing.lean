import Mathlib.Data.List.Forall2
import DocAudit.Proofs.DocBlock.Ownership
import DocAudit.Proofs.Machine.Scan

namespace DocAudit.DocBlock

/-!
# Where a reader stands

Whether a reader accepts a line depends on three things only: its phase, the name
of the open entry, and whether an option is open. They move by an automaton of
their own, `Standing.next?`, and the reader follows it line by line: it accepts a
line exactly when the automaton has a move, and then stands where the move ends.
-/

/-- The part of a reader that decides which lines it accepts. -/
structure Standing where
  phase : Phase
  name? : Option String
  inOption : Bool
  deriving Repr, DecidableEq

namespace Standing

/-- The standing before any line. -/
def start : Standing where
  phase := .start
  name? := none
  inOption := false

/-- The event of a line. -/
def eventOf
    (standing : Standing) :
    CommentLine.Content → Event
  | .header _ => .gotHeader
  | .optionHeader _ _ _ => .gotOptionHeader
  | .separator => .gotSeparator
  | .description =>
      if standing.inOption then
        .gotOptionDescription
      else
        .gotDescription

/-- Where a line leads in a phase; an option header must name the open entry. -/
def enter
    (standing : Standing)
    (phase : Phase) :
    CommentLine.Content → Option Standing
  | .header name => some ⟨phase, some name, false⟩
  | .optionHeader hash _ _ =>
      if standing.name? = some hash then
        some { standing with phase := phase, inOption := true }
      else
        none
  | .separator => some { standing with phase := phase }
  | .description => some { standing with phase := phase }

/-- Where a line leads, if it is accepted. -/
def next?
    (standing : Standing)
    (content : CommentLine.Content) :
    Option Standing :=
  (table.get? (standing.phase, standing.eventOf content)).bind fun phase =>
    standing.enter phase content

/-- Where lines lead, if they are all accepted. -/
def reach?
    (standing : Standing)
    (contents : List CommentLine.Content) :
    Option Standing :=
  contents.foldlM next? standing

theorem reach?_cons
    (standing : Standing)
    (content : CommentLine.Content)
    (rest : List CommentLine.Content) :
    standing.reach? (content :: rest) =
      (standing.next? content).bind fun next => next.reach? rest :=
  rfl

theorem reach?_append
    (standing : Standing)
    (first second : List CommentLine.Content) :
    standing.reach? (first ++ second) =
      (standing.reach? first).bind fun next => next.reach? second :=
  List.foldlM_append

/-- Without an open entry no header was read. -/
def Begun (standing : Standing) : Prop :=
  standing.name? = none → standing.phase = .start

/-- The first line that is accepted is a parameter header. -/
theorem isHeader_of_next?
    {standing next : Standing}
    {content : CommentLine.Content}
    (begun : standing.Begun)
    (noEntry : standing.name? = none)
    (moves : standing.next? content = some next) :
    ∃ name, content = .header name := by
  rcases standing with ⟨phase, name?, inOption⟩
  obtain rfl : phase = .start := begun noEntry
  unfold next? at moves
  rw [get?_table] at moves
  cases content with
  | header name => exact ⟨name, rfl⟩
  | optionHeader hash valueType name => cases moves
  | separator => cases moves
  | description => cases inOption <;> cases moves

/-- After a line that is accepted an entry is open. -/
theorem Begun.exists_entry
    {standing next : Standing}
    {content : CommentLine.Content}
    (begun : standing.Begun)
    (moves : standing.next? content = some next) :
    ∃ name, next.name? = some name := by
  obtain ⟨phase, _, enters⟩ := Option.bind_eq_some_iff.mp moves
  cases wasOpen : standing.name? with
  | none =>
      obtain ⟨name, rfl⟩ := isHeader_of_next? begun wasOpen moves
      cases enters
      exact ⟨name, rfl⟩
  | some openName =>
      cases content with
      | header name =>
          cases enters
          exact ⟨name, rfl⟩
      | optionHeader hash valueType name =>
          simp only [enter, Option.ite_none_right_eq_some] at enters
          cases enters.2
          exact ⟨openName, wasOpen⟩
      | separator =>
          cases enters
          exact ⟨openName, wasOpen⟩
      | description =>
          cases enters
          exact ⟨openName, wasOpen⟩

theorem Begun.next?
    {standing next : Standing}
    {content : CommentLine.Content}
    (begun : standing.Begun)
    (moves : standing.next? content = some next) :
    next.Begun := by
  intro noEntry
  obtain ⟨name, isOpen⟩ := begun.exists_entry moves
  rw [noEntry] at isOpen
  cases isOpen

end Standing

namespace Contents

/-- Where contents stand in a phase. -/
def standing
    (contents : Contents)
    (phase : Phase) :
    Standing where
  phase := phase
  name? := contents.draft?.map EntryDraft.name
  inOption := contents.inOption

theorem eventOf_standing
    (contents : Contents)
    (phase : Phase)
    (line : CommentLine) :
    (contents.standing phase).eventOf line.content = contents.eventOf line := by
  rcases line with ⟨comment, content⟩
  cases content <;> rfl

/-- Lines change what contents stand for as the automaton says. -/
theorem standing_accept
    {contents : Contents}
    (owned : Owned contents)
    (source target : Phase)
    (line : CommentLine) :
    (contents.accept line).toOption.map (fun next => next.standing target) =
      (contents.standing source).enter target line.content := by
  rcases line with ⟨comment, content⟩
  cases content with
  | header name =>
      obtain ⟨docs, opens⟩ := owned.exists_openEntry name comment
      simp only [accept, opens]
      rfl
  | optionHeader hash valueType name =>
      have sameEntry := draftName?_closeOption contents
      cases isOpen : contents.closeOption.draft? with
      | none =>
          rw [isOpen] at sameEntry
          simp [accept, openOption, isOpen, standing, Standing.enter, ← sameEntry,
            Except.toOption]
      | some entry =>
          rw [isOpen] at sameEntry
          by_cases sameName : hash = entry.name
          · simp [accept, openOption, isOpen, standing, Standing.enter, ← sameEntry,
              sameName, Except.toOption, inOption]
          · have otherName : ¬ entry.name = hash := fun same => sameName same.symm
            simp [accept, openOption, isOpen, standing, Standing.enter, ← sameEntry,
              sameName, otherName, Except.toOption]
  | separator => rfl
  | description =>
      rcases contents with ⟨draft?, option?, docs⟩
      cases option? <;> cases draft? <;> rfl

end Contents

namespace Reader

/-- Where a reader stands. -/
def standing (reader : Reader) : Standing :=
  reader.contents.standing reader.state

/-- What holds of every reader: options are with their entry, and entries are begun. -/
structure Sound (reader : Reader) : Prop where
  owned : reader.contents.Owned
  begun : reader.standing.Begun

theorem sound_start : Sound start where
  owned := Contents.owned_blank
  begun := fun _ => rfl

/-- A reader takes a line exactly when the automaton has a move, and follows it. -/
theorem standing_take
    {reader : Reader}
    (sound : Sound reader)
    (line : CommentLine) :
    (take reader line).toOption.map standing =
      reader.standing.next? line.content := by
  have enters := fun target =>
    Contents.standing_accept sound.owned reader.state target line
  unfold take Machine.Situation.fire Standing.next? standing
  rw [Contents.eventOf_standing]
  change _ = (table.get? (reader.state, _)).bind _
  cases table.get? (reader.state, reader.contents.eventOf line) with
  | none => rfl
  | some target =>
      rw [Option.bind_some, ← enters target]
      cases accepts : reader.contents.accept line <;>
        simp only [accepts] <;>
          rfl

theorem Sound.take
    {reader next : Reader}
    {line : CommentLine}
    (sound : Sound reader)
    (takes : take reader line = .ok next) :
    Sound next := by
  constructor
  · obtain ⟨target, contents, _, accepts, rfl⟩ := Machine.Situation.fire_eq_ok takes
    exact sound.owned.accept accepts
  · have follows := standing_take sound line
    rw [takes] at follows
    exact sound.begun.next? follows.symm

/-- Where the automaton has a move, the reader has a step. -/
theorem Sound.exists_take
    {reader : Reader}
    {target : Standing}
    (sound : Sound reader)
    (line : CommentLine)
    (moves : reader.standing.next? line.content = some target) :
    ∃ next, Reader.take reader line = .ok next ∧ next.standing = target := by
  rw [← standing_take sound line] at moves
  cases takes : Reader.take reader line with
  | error fault =>
      rw [takes] at moves
      cases moves
  | ok next =>
      rw [takes] at moves
      exact ⟨next, rfl, Option.some.inj moves⟩

/-- A comment that is read as a line, at the latest once a header was read. -/
def Reads
    (config : Config)
    (comment : Token)
    (content : CommentLine.Content) : Prop :=
  ∀ started : Bool,
    started = true ∨ (∃ name, content = .header name) →
      CommentLine.read config started comment = .ok (some ⟨comment, content⟩)

theorem step_of_reads
    {config : Config}
    {reader : Reader}
    {comment : Token}
    {content : CommentLine.Content}
    {target : Standing}
    (sound : Sound reader)
    (reads : Reads config comment content)
    (moves : reader.standing.next? content = some target) :
    step config reader comment = Reader.take reader ⟨comment, content⟩ := by
  have isRead :
      CommentLine.read config reader.contents.started comment =
        .ok (some ⟨comment, content⟩) := by
    apply reads
    cases isOpen : reader.contents.draft? with
    | some entry =>
        left
        simp [Contents.started, isOpen]
    | none =>
        right
        have noEntry : reader.standing.name? = none := by
          simp [standing, Contents.standing, isOpen]
        exact Standing.isHeader_of_next? sound.begun noEntry moves
  unfold step
  simp only [isRead]

/-- A reader reads all lines that lead the automaton to an end. -/
theorem run_of_reads
    {config : Config}
    {reader : Reader}
    {comments : List Token}
    {contents : List CommentLine.Content}
    {target : Standing}
    (sound : Sound reader)
    (reads : List.Forall₂ (Reads config) comments contents)
    (moves : reader.standing.reach? contents = some target) :
    ∃ last,
      Machine.Scan.run (step config) reader comments = .finished last ∧
        Sound last ∧ last.standing = target := by
  induction reads generalizing reader with
  | nil =>
      exact ⟨reader, rfl, sound, Option.some.inj moves⟩
  | @cons comment content _ _ read _ inductionHypothesis =>
      rw [Standing.reach?_cons, Option.bind_eq_some_iff] at moves
      obtain ⟨standing, firstMove, restMoves⟩ := moves
      obtain ⟨next, takes, rfl⟩ := sound.exists_take ⟨comment, content⟩ firstMove
      obtain ⟨last, runs, lastSound, arrives⟩ :=
        inductionHypothesis (sound.take takes) restMoves
      refine ⟨last, ?_, lastSound, arrives⟩
      rw [Machine.Scan.run, step_of_reads sound read firstMove, takes]
      exact runs

theorem Sound.exists_finish
    {reader : Reader}
    (sound : Sound reader) :
    ∃ last, finish reader = .ok last := by
  obtain ⟨docs, closes⟩ := sound.owned.closeOption.exists_closeEntry
  unfold finish
  rw [closes]
  exact ⟨_, rfl⟩

end Reader

end DocAudit.DocBlock
