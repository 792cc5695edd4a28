import DocAudit.Proofs.DocBlock.Names
import DocAudit.Proofs.DocBlock.Standing

namespace DocAudit

/-!
# Documentation lines

The documentation of a block begins with its first parameter header. What stands
in front of it is skipped, and so is every later comment that is no line of the
documentation. The reader takes the others: reading the comments of a block is
taking its documentation lines one after the other, up to the first comment that
cannot be read at all.
-/

namespace CommentLine

section Read

variable
  {config : Config}
  {started : Bool}
  {comment : Token}
  {line : CommentLine}

/-- A line keeps the comment that it was read from. -/
theorem comment_of_read
    (read : CommentLine.read config started comment = .ok (some line)) :
    line.comment = comment := by
  cases readAs_of_read read <;> rfl

/-- A header line is read as the header that its comment writes. -/
theorem ofComment?_of_read
    {header : Header}
    (read : CommentLine.read config started comment = .ok (some line))
    (isHeader : line.content.header? = some header) :
    Header.ofComment? comment = some header := by
  cases readAs_of_read read with
  | header _ shape => exact shape.trans isHeader
  | optionHeader _ shape => exact shape.trans isHeader
  | separator => cases isHeader
  | description => cases isHeader

end Read

/-- A comment that mentions the parameter marker is never skipped. -/
theorem isSome_of_read
    {config : Config}
    {started : Bool}
    {comment : Token}
    {line? : Option CommentLine}
    (mentions : comment.mentionsParam = true)
    (read : CommentLine.read config started comment = .ok line?) :
    line?.isSome = true := by
  rcases read_eq_ok read with ⟨_, name, rfl, _⟩ | ⟨silent, _⟩
  · rfl
  · rw [mentions] at silent
    cases silent

/-- The marker of a parameter header is read whether or not a header was read before. -/
theorem read_of_mentionsParam
    {comment : Token}
    (config : Config)
    (started : Bool)
    (mentions : comment.mentionsParam = true) :
    CommentLine.read config started comment = CommentLine.read config true comment := by
  simp only [CommentLine.read, if_pos mentions]

end CommentLine

namespace DocBlock

/-- The comments of a block from the first one on that mentions the parameter marker. -/
def fromFirstHeader (comments : List Token) : List Token :=
  comments.dropWhile fun comment => !comment.mentionsParam

/-- The lines of comments behind a header, without the comments that are skipped. -/
def linesFrom
    (config : Config)
    (comments : List Token) :
    Except Fault (List CommentLine) :=
  comments.filterMapM (CommentLine.read config true)

/-- The documentation lines of a block. -/
def documentationLines
    (config : Config)
    (comments : List Token) :
    Except Fault (List CommentLine) :=
  linesFrom config (fromFirstHeader comments)

section Lines

variable
  {config : Config}
  {comment : Token}
  {rest comments : List Token}
  {lines : List CommentLine}
  {fault : Fault}

theorem linesFrom_cons :
    linesFrom config (comment :: rest) =
      (CommentLine.read config true comment).bind fun line? =>
        (linesFrom config rest).map (line?.toList ++ ·) := by
  unfold linesFrom
  rw [List.filterMapM_cons]
  cases CommentLine.read config true comment with
  | error fault => rfl
  | ok line? =>
      cases line? with
      | none =>
          change _ = Except.map ([] ++ ·) _
          cases List.filterMapM (CommentLine.read config true) rest <;> rfl
      | some line => rfl

/-- Comments are lines when the first one can be read and the others are lines. -/
theorem linesFrom_cons_eq_ok_iff :
    linesFrom config (comment :: rest) = .ok lines ↔
      ∃ line? others,
        CommentLine.read config true comment = .ok line? ∧
          linesFrom config rest = .ok others ∧ lines = line?.toList ++ others := by
  rw [linesFrom_cons]
  cases CommentLine.read config true comment with
  | error fault => simp [Except.bind]
  | ok line? =>
      cases linesFrom config rest with
      | error fault => simp [Except.bind, Except.map]
      | ok others => simp [Except.bind, Except.map, eq_comm]

/-- Each line was read from a comment, behind the lines in front of it. -/
theorem exists_split_of_linesFrom
    {before after : List CommentLine}
    {line : CommentLine}
    (read : linesFrom config comments = .ok (before ++ line :: after)) :
    ∃ front back,
      comments = front ++ line.comment :: back ∧
        linesFrom config front = .ok before ∧
          linesFrom config (front ++ [line.comment]) = .ok (before ++ [line]) := by
  induction comments generalizing before with
  | nil => simp [linesFrom, pure, Except.pure] at read
  | cons comment rest inductionHypothesis =>
      obtain ⟨line?, others, readHere, readRest, split⟩ :=
        linesFrom_cons_eq_ok_iff.mp read
      cases line? with
      | none =>
          obtain rfl : before ++ line :: after = others := split
          obtain ⟨front, back, rfl, inFront, upTo⟩ := inductionHypothesis readRest
          exact
            ⟨comment :: front, back, rfl,
              linesFrom_cons_eq_ok_iff.mpr ⟨none, _, readHere, inFront, rfl⟩,
              linesFrom_cons_eq_ok_iff.mpr ⟨none, _, readHere, upTo, rfl⟩⟩
      | some first =>
          cases before with
          | nil =>
              obtain ⟨rfl, rfl⟩ : line = first ∧ after = others := by
                simpa using split
              obtain rfl := CommentLine.comment_of_read readHere
              exact
                ⟨[], rest, rfl, rfl,
                  linesFrom_cons_eq_ok_iff.mpr ⟨some line, [], readHere, rfl, rfl⟩⟩
          | cons earlier more =>
              obtain ⟨rfl, rfl⟩ : earlier = first ∧ more ++ line :: after = others := by
                simpa using split
              obtain ⟨front, back, rfl, inFront, upTo⟩ := inductionHypothesis readRest
              exact
                ⟨comment :: front, back, rfl,
                  linesFrom_cons_eq_ok_iff.mpr ⟨_, _, readHere, inFront, rfl⟩,
                  linesFrom_cons_eq_ok_iff.mpr ⟨_, _, readHere, upTo, rfl⟩⟩

/-- Comments that are lines can be read one by one. -/
theorem exists_read_of_linesFrom
    (read : linesFrom config comments = .ok lines)
    (member : comment ∈ comments) :
    ∃ line?, CommentLine.read config true comment = .ok line? := by
  induction comments generalizing lines with
  | nil => cases member
  | cons first rest inductionHypothesis =>
      obtain ⟨line?, others, readHere, readRest, _⟩ := linesFrom_cons_eq_ok_iff.mp read
      rcases List.mem_cons.mp member with rfl | inRest
      · exact ⟨line?, readHere⟩
      · exact inductionHypothesis readRest inRest

/-- Each line was read from one of the comments. -/
theorem exists_mem_of_linesFrom
    (read : linesFrom config comments = .ok lines)
    {line : CommentLine}
    (member : line ∈ lines) :
    ∃ comment ∈ comments, CommentLine.read config true comment = .ok (some line) := by
  induction comments generalizing lines with
  | nil =>
      cases read
      cases member
  | cons first rest inductionHypothesis =>
      obtain ⟨line?, others, readHere, readRest, rfl⟩ := linesFrom_cons_eq_ok_iff.mp read
      rcases List.mem_append.mp member with isFirst | behind
      · obtain rfl : line? = some line := by simpa using isFirst
        exact ⟨first, List.mem_cons_self, readHere⟩
      · obtain ⟨comment, inRest, isRead⟩ := inductionHypothesis readRest behind
        exact ⟨comment, List.mem_cons_of_mem first inRest, isRead⟩

/-- Where comments are no lines, some comment behind proper lines cannot be read. -/
theorem exists_unreadable_of_linesFrom
    (failed : linesFrom config comments = .error fault) :
    ∃ front comment back before,
      comments = front ++ comment :: back ∧
        linesFrom config front = .ok before ∧
          CommentLine.read config true comment = .error fault := by
  induction comments with
  | nil => cases failed
  | cons comment rest inductionHypothesis =>
      rw [linesFrom_cons] at failed
      cases readHere : CommentLine.read config true comment with
      | error other =>
          rw [readHere] at failed
          cases failed
          exact ⟨[], comment, rest, [], rfl, rfl, readHere⟩
      | ok line? =>
          cases readRest : linesFrom config rest with
          | ok others => simp [readHere, readRest, Except.bind, Except.map] at failed
          | error other =>
              simp only [readHere, readRest, Except.bind, Except.map] at failed
              cases failed
              obtain ⟨front, blamed, back, before, rfl, inFront, unreadable⟩ :=
                inductionHypothesis readRest
              exact
                ⟨comment :: front, blamed, back, line?.toList ++ before, rfl,
                  linesFrom_cons_eq_ok_iff.mpr ⟨line?, before, readHere, inFront, rfl⟩,
                  unreadable⟩

end Lines

/-! A block is what stands in front of its first header, and its documentation. -/

/-- Comments that begin with the marker of a parameter header, if they begin at all. -/
def Headed (comments : List Token) : Prop :=
  ∀ comment ∈ comments.head?, comment.mentionsParam = true

theorem Headed.left
    {front back : List Token}
    (headed : Headed (front ++ back)) :
    Headed front := by
  cases front with
  | nil => simp [Headed]
  | cons comment rest => exact headed

theorem exists_headed (comments : List Token) :
    ∃ skipped headed,
      comments = skipped ++ headed ∧
        (∀ comment ∈ skipped, comment.mentionsParam = false) ∧ Headed headed := by
  refine
    ⟨comments.takeWhile fun comment => !comment.mentionsParam,
      fromFirstHeader comments, List.takeWhile_append_dropWhile.symm, ?_, ?_⟩
  · intro comment member
    simpa using List.all_eq_true.mp List.all_takeWhile comment member
  · intro comment first
    have atHead := List.head?_dropWhile_not (fun comment => !Token.mentionsParam comment) comments
    unfold fromFirstHeader at first
    rw [Option.mem_def.mp first] at atHead
    simpa using atHead

theorem documentationLines_append
    {config : Config}
    {skipped headed : List Token}
    (silent : ∀ comment ∈ skipped, comment.mentionsParam = false)
    (isHeaded : Headed headed) :
    documentationLines config (skipped ++ headed) = linesFrom config headed := by
  have isRest : fromFirstHeader (skipped ++ headed) = headed := by
    unfold fromFirstHeader
    rw [List.dropWhile_append_of_pos (by simpa using silent)]
    cases headed with
    | nil => rfl
    | cons comment rest =>
        exact List.dropWhile_cons_of_neg (by simp [isHeaded comment rfl])
  rw [documentationLines, isRest]

/-- Each documentation line was read from a comment, behind the lines in front of it. -/
theorem exists_split_of_documentationLines
    {config : Config}
    {comments : List Token}
    {before after : List CommentLine}
    {line : CommentLine}
    (read : documentationLines config comments = .ok (before ++ line :: after)) :
    ∃ front back,
      comments = front ++ line.comment :: back ∧
        documentationLines config front = .ok before ∧
          documentationLines config (front ++ [line.comment]) = .ok (before ++ [line]) := by
  obtain ⟨skipped, headed, rfl, silent, isHeaded⟩ := exists_headed comments
  rw [documentationLines_append silent isHeaded] at read
  obtain ⟨front, back, rfl, inFront, upTo⟩ := exists_split_of_linesFrom read
  have isHeadedUpTo : Headed (front ++ [line.comment]) := by
    rw [← List.singleton_append, ← List.append_assoc] at isHeaded
    exact isHeaded.left
  refine ⟨skipped ++ front, back, by simp, ?_, ?_⟩
  · rw [documentationLines_append silent isHeaded.left]
    exact inFront
  · rw [List.append_assoc, documentationLines_append silent isHeadedUpTo]
    exact upTo

namespace Reader

section Runs

variable
  {config : Config}
  {reader last : Reader}
  {comment : Token}
  {comments : List Token}
  {line : CommentLine}
  {lines : List CommentLine}
  {fault : Fault}

theorem started_of_take
    (sound : Sound reader)
    (takes : take reader line = .ok last) :
    last.contents.started = true := by
  have follows := standing_take sound line
  rw [takes] at follows
  obtain ⟨name, isOpen⟩ := sound.begun.exists_entry follows.symm
  have isDraft : last.contents.draft?.map EntryDraft.name = some name := isOpen
  obtain ⟨entry, isEntry, _⟩ := Option.map_eq_some_iff.mp isDraft
  simp [Contents.started, isEntry]

/-- Behind a header, or at one, a comment is read in the same way. -/
theorem step_eq
    (opened : reader.contents.started = true ∨ comment.mentionsParam = true) :
    step config reader comment =
      (CommentLine.read config true comment).bind fun line? =>
        line?.elim (.ok reader) (take reader) := by
  have sameRead :
      CommentLine.read config reader.contents.started comment =
        CommentLine.read config true comment := by
    rcases opened with started | mentions
    · rw [started]
    · exact CommentLine.read_of_mentionsParam config _ mentions
  unfold step
  rw [sameRead]
  cases CommentLine.read config true comment with
  | error fault => rfl
  | ok line? => cases line? <;> rfl

/-- Reading comments is taking their lines, once a header was read or is the first of them. -/
theorem run_step_eq_run_take
    (sound : Sound reader)
    (opened : reader.contents.started = true ∨ Headed comments)
    (read : linesFrom config comments = .ok lines) :
    Machine.Scan.run (step config) reader comments =
      Machine.Scan.run take reader lines := by
  induction comments generalizing reader lines with
  | nil =>
      cases read
      rfl
  | cons comment rest inductionHypothesis =>
      obtain ⟨line?, others, readHere, readRest, rfl⟩ := linesFrom_cons_eq_ok_iff.mp read
      have openedHere : reader.contents.started = true ∨ comment.mentionsParam = true :=
        opened.imp_right fun headed => headed comment rfl
      have steps :
          step config reader comment =
            (CommentLine.read config true comment).bind fun line? =>
              line?.elim (.ok reader) (take reader) :=
        step_eq openedHere
      rw [readHere] at steps
      cases line? with
      | none =>
          -- A comment that is skipped is no header, so one was read in front of it.
          have started : reader.contents.started = true := by
            refine openedHere.resolve_right fun mentions => ?_
            cases CommentLine.isSome_of_read mentions readHere
          rw [Machine.Scan.run, steps]
          exact inductionHypothesis sound (.inl started) readRest
      | some line =>
          change step config reader comment = take reader line at steps
          rw [Machine.Scan.run, steps]
          change _ = Machine.Scan.run take reader (line :: others)
          rw [Machine.Scan.run]
          cases takes : take reader line with
          | error fault => rfl
          | ok next =>
              exact
                inductionHypothesis (sound.take takes)
                  (.inl (started_of_take sound takes)) readRest

/-- Comments in front of the first header leave the reader at its start. -/
theorem run_step_skipped
    {skipped : List Token}
    (silent : ∀ comment ∈ skipped, comment.mentionsParam = false)
    (comments : List Token) :
    Machine.Scan.run (step config) start (skipped ++ comments) =
      Machine.Scan.run (step config) start comments := by
  induction skipped with
  | nil => rfl
  | cons comment rest inductionHypothesis =>
      obtain ⟨atHead, inRest⟩ := List.forall_mem_cons.mp silent
      have isSkipped : CommentLine.read config false comment = .ok none := by
        simp [CommentLine.read, atHead]
      have steps : step config start comment = .ok start := by
        have readHere : CommentLine.read config start.contents.started comment = .ok none :=
          isSkipped
        simp only [step, readHere]
      rw [List.cons_append, Machine.Scan.run, steps]
      exact inductionHypothesis inRest

/-- Reading the comments of a block is taking its documentation lines. -/
theorem run_step_start
    (read : documentationLines config comments = .ok lines) :
    Machine.Scan.run (step config) start comments =
      Machine.Scan.run take start lines := by
  obtain ⟨skipped, headed, rfl, silent, isHeaded⟩ := exists_headed comments
  rw [documentationLines_append silent isHeaded] at read
  rw [run_step_skipped silent]
  exact run_step_eq_run_take sound_start (.inr isHeaded) read

theorem Sound.run
    (sound : Sound reader)
    (runs : Machine.Scan.run Reader.take reader lines = .finished last) :
    Sound last ∧
      (reader.contents.started = true ∨ lines ≠ [] → last.contents.started = true) := by
  induction lines generalizing reader with
  | nil =>
      cases runs
      exact ⟨sound, fun started => started.resolve_right (by simp)⟩
  | cons line rest inductionHypothesis =>
      obtain ⟨next, takes, runs⟩ := Machine.Scan.run_cons_eq_finished_iff.mp runs
      obtain ⟨lastSound, keeps⟩ := inductionHypothesis (sound.take takes) runs
      exact ⟨lastSound, fun _ => keeps (.inl (started_of_take sound takes))⟩

/-- A comment that cannot be read stops the reader, unless a line in front of it does. -/
theorem run_step_start_of_unreadable
    (failed : documentationLines config comments = .error fault) :
    ∃ front comment back before,
      comments = front ++ comment :: back ∧
        documentationLines config front = .ok before ∧
          CommentLine.read config true comment = .error fault ∧
            Machine.Scan.run (step config) start comments =
              (Machine.Scan.run take start before).andThen fun _ => .error fault := by
  obtain ⟨skipped, headed, rfl, silent, isHeaded⟩ := exists_headed comments
  rw [documentationLines_append silent isHeaded] at failed
  obtain ⟨front, comment, back, before, rfl, inFront, unreadable⟩ :=
    exists_unreadable_of_linesFrom failed
  refine
    ⟨skipped ++ front, comment, back, before, by simp, ?_, unreadable, ?_⟩
  · rw [documentationLines_append silent isHeaded.left]
    exact inFront
  rw [run_step_skipped silent, Machine.Scan.run_append_of_error]
  · rw [run_step_eq_run_take sound_start (.inr isHeaded.left) inFront]
  intro last runs
  rw [run_step_eq_run_take sound_start (.inr isHeaded.left) inFront] at runs
  have opened : last.contents.started = true ∨ comment.mentionsParam = true := by
    cases front with
    | nil => exact .inr (isHeaded comment rfl)
    | cons first more =>
        obtain ⟨line?, others, readFirst, _, rfl⟩ := linesFrom_cons_eq_ok_iff.mp inFront
        have isLine := CommentLine.isSome_of_read (isHeaded first rfl) readFirst
        obtain ⟨line, rfl⟩ := Option.isSome_iff_exists.mp isLine
        exact .inl ((sound_start.run runs).2 (.inr (by simp)))
  rw [step_eq opened, unreadable]
  rfl

end Runs

end Reader

end DocBlock

end DocAudit
