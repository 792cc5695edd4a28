import DocAudit.Proofs.DocBlock.Accounting
import DocAudit.Proofs.DocBlock.Precedence
import DocAudit.Proofs.DocBlock.Safety
import DocAudit.Proofs.Machine.Run
import Mathlib.Data.List.Forall2

namespace DocAudit.DocBlock

/-!
# What the moves of a reader tell of a block

Every comment that is not skipped makes the reader move once, by an event that tells
what kind of line the comment is. Which comments are skipped depends on whether a
header was read in front of them, and so does the reader; but that can be told from
the comments alone. The moves of a block that is accepted therefore count its
headers and options. The main statement is `run_tells_lines`.
-/

/-- A move of a reader. -/
abbrev Move :=
  Machine.Move Phase Event

/--
The lines of comments, without those that are skipped. The flag tells whether a
comment in front of them mentions the marker of a parameter header.
-/
def classified
    (config : Config)
    (started : Bool) :
    List Token → Except Fault (List CommentLine)
  | [] => .ok []
  | comment :: rest =>
      (CommentLine.read config started comment).bind fun line? =>
        (classified config (started || comment.mentionsParam) rest).map
          (line?.toList ++ ·)

/-- The event of a line tells what the line is. -/
inductive Tells : CommentLine.Content → Event → Prop where
  | header
      {name : String} :
      Tells (.header name) .gotHeader
  | optionHeader
      {hash valueType name : String} :
      Tells (.optionHeader hash valueType name) .gotOptionHeader
  | separator :
      Tells .separator .gotSeparator
  | description :
      Tells .description .gotDescription
  | optionDescription :
      Tells .description .gotOptionDescription

/-- A line and the move that it made. -/
def Told
    (line : CommentLine)
    (move : Move) :
    Prop :=
  Tells line.content move.event

section Classified

variable
  {config : Config}
  {comments : List Token}

/-- Behind a header, nothing depends on the comments in front any more. -/
theorem classified_started :
    classified config true comments = linesFrom config comments := by
  induction comments with
  | nil => rfl
  | cons comment rest inductionHypothesis =>
      rw [classified, linesFrom_cons, Bool.true_or, inductionHypothesis]

/-- The lines of a block are its documentation lines. -/
theorem classified_eq_documentationLines :
    classified config false comments = documentationLines config comments := by
  induction comments with
  | nil => rfl
  | cons comment rest inductionHypothesis =>
      -- At the first header the flag turns, and in front of it every comment is skipped.
      cases mentions : comment.mentionsParam with
      | true =>
          have isRest : fromFirstHeader (comment :: rest) = comment :: rest :=
            List.dropWhile_cons_of_neg (by simp [mentions])
          rw [documentationLines, isRest, linesFrom_cons, classified, mentions,
            CommentLine.read_of_mentionsParam config false mentions, Bool.false_or,
            classified_started]
      | false =>
          have isSkipped : CommentLine.read config false comment = .ok none := by
            simp [CommentLine.read, mentions]
          have isRest : fromFirstHeader (comment :: rest) = fromFirstHeader rest :=
            List.dropWhile_cons_of_pos (by simp [mentions])
          rw [documentationLines, isRest, ← documentationLines, classified, mentions,
            isSkipped, ← inductionHypothesis]
          change (classified config false rest).map ([] ++ ·) = _
          cases classified config false rest <;> rfl

end Classified

namespace Reader

variable
  {config : Config}
  {reader last next : Reader}
  {line : CommentLine}
  {lines : List CommentLine}
  {comment : Token}
  {comments : List Token}

theorem tells_eventOf
    (contents : Contents)
    (line : CommentLine) :
    Tells line.content (contents.eventOf line) := by
  rcases line with ⟨comment, content⟩
  cases content with
  | header name => exact .header
  | optionHeader hash valueType name => exact .optionHeader
  | separator => exact .separator
  | description =>
      cases isOpen : contents.inOption with
      | true => simpa [Contents.eventOf, isOpen] using Tells.optionDescription
      | false => simpa [Contents.eventOf, isOpen] using Tells.description

/-- A line that is taken makes one move, along the table. -/
theorem exists_move_of_take
    (takes : take reader line = .ok next) :
    ∃ target,
      table.get? (reader.state, reader.contents.eventOf line) = some target ∧
        next.state = target ∧
          next.moves =
            reader.moves ++ [⟨reader.contents.eventOf line, reader.state, target⟩] := by
  obtain ⟨target, contents, lookup, _, rfl⟩ := Machine.Situation.fire_eq_ok takes
  exact ⟨target, lookup, rfl, rfl⟩

/-- Lines that are taken make one move each, in their order. -/
theorem told_of_run
    (runs : Machine.Scan.run take reader lines = .finished last) :
    ∃ moves, last.moves = reader.moves ++ moves ∧ List.Forall₂ Told lines moves := by
  induction lines generalizing reader with
  | nil =>
      cases runs
      exact ⟨[], (List.append_nil _).symm, .nil⟩
  | cons line rest inductionHypothesis =>
      obtain ⟨next, takes, runsOn⟩ := Machine.Scan.run_cons_eq_finished_iff.mp runs
      obtain ⟨target, _, _, moved⟩ := exists_move_of_take takes
      obtain ⟨moves, movedOn, told⟩ := inductionHypothesis runsOn
      have tells : Told line ⟨reader.contents.eventOf line, reader.state, target⟩ :=
        tells_eventOf reader.contents line
      refine ⟨_, ?_, .cons tells told⟩
      rw [movedOn, moved, List.append_assoc]
      rfl

/-- Every comment goes on with the path of the reader. -/
theorem path_of_step
    (path : Machine.Path table .start reader.moves reader.state)
    (steps : step config reader comment = .ok next) :
    Machine.Path table .start next.moves next.state := by
  unfold step at steps
  split at steps
  · cases steps
  · cases steps
    exact path
  · obtain ⟨target, lookup, rfl, moved⟩ := exists_move_of_take steps
    rw [moved]
    exact path.concat lookup

/-- What the moves of a reader tell of the comments that it has read. -/
structure Traced
    (config : Config)
    (comments : List Token)
    (reader : Reader) : Prop where
  steady : Steady reader
  path : Machine.Path table .start reader.moves reader.state
  told :
    ∃ lines sections,
      classified config false comments = .ok lines ∧
        List.Forall₂ Told lines reader.moves ∧
          reader.contents.Holds sections ∧
            sections.flatMap EntrySection.lines =
              lines.filter CommentLine.isSectionPart

theorem traced_of_run
    (reads : Machine.Scan.run (step config) .start comments = .finished last) :
    Traced config comments last := by
  obtain ⟨lines, read, takes⟩ := exists_run_take reads
  obtain ⟨moves, moved, told⟩ := told_of_run takes
  obtain ⟨sections, holds, inOrder⟩ := holds_of_run sound_start .nothing takes
  obtain rfl : last.moves = moves := moved
  exact
    { steady := steady_of_run reads
      path := Machine.Scan.holds_of_run path_of_step .nil reads
      told :=
        ⟨lines, sections, classified_eq_documentationLines.trans read, told, holds,
          inOrder⟩ }

end Reader

/-! What the moves count is what the sections of a block count. -/

/-- An event that tells a kind of line is fired as often as there are such lines. -/
theorem countOf_eq_length
    {event : Event}
    {wanted : CommentLine → Bool}
    {lines : List CommentLine}
    {moves : List Move}
    (told : List.Forall₂ Told lines moves)
    (marks :
      ∀ {line : CommentLine} {move : Move},
        Told line move → decide (move.event = event) = wanted line) :
    Machine.countOf event moves = (lines.filter wanted).length := by
  rw [← List.countP_eq_length_filter]
  induction told with
  | nil => rfl
  | cons tells _ inductionHypothesis =>
      unfold Machine.countOf at inductionHypothesis ⊢
      rw [List.countP_cons, List.countP_cons, inductionHypothesis, marks tells]

theorem Told.isParamHeader_eq
    {line : CommentLine}
    {move : Move}
    (told : Told line move) :
    decide (move.event = .gotHeader) = line.isParamHeader := by
  rcases line with ⟨comment, content⟩
  rcases move with ⟨event, source, target⟩
  cases told <;> rfl

theorem Told.isOptionHeader_eq
    {line : CommentLine}
    {move : Move}
    (told : Told line move) :
    decide (move.event = .gotOptionHeader) = line.isOptionHeader := by
  rcases line with ⟨comment, content⟩
  rcases move with ⟨event, source, target⟩
  cases told <;> rfl

section Counts

variable
  {lines : List CommentLine}
  {moves : List Move}
  {sections : List EntrySection}

/-- There are as many headers as entries. -/
theorem countOf_gotHeader
    (told : List.Forall₂ Told lines moves)
    (inOrder :
      sections.flatMap EntrySection.lines = lines.filter CommentLine.isSectionPart) :
    Machine.countOf .gotHeader moves = (sections.map EntrySection.doc).length := by
  have headers := congrArg List.length (paramHeaders_sections sections)
  rw [inOrder, filter_sectionParts fun _ => rfl, List.length_map, List.length_map] at headers
  rw [countOf_eq_length told Told.isParamHeader_eq, headers, List.length_map]

/-- There are as many option headers as options in all entries. -/
theorem countOf_gotOptionHeader
    (told : List.Forall₂ Told lines moves)
    (inOrder :
      sections.flatMap EntrySection.lines = lines.filter CommentLine.isSectionPart) :
    Machine.countOf .gotOptionHeader moves =
      ((sections.map EntrySection.doc).flatMap ParameterDoc.options).length := by
  have headers := congrArg List.length (optionHeaders_sections sections)
  rw [inOrder, filter_sectionParts fun _ => rfl, List.length_map] at headers
  rw [countOf_eq_length told Told.isOptionHeader_eq, headers]
  simp [List.length_flatMap, Function.comp_def, EntrySection.doc]

end Counts

/-- Where no entry is open, no section was read. -/
theorem Contents.Holds.draft?_eq_none_iff
    {contents : Contents}
    {sections : List EntrySection}
    (holds : contents.Holds sections) :
    contents.draft? = none ↔ sections = [] := by
  cases holds <;> simp [Contents.blank]

/-- What the moves of a run tell that has read comments as some entries. -/
structure Run.Read
    (config : Config)
    (comments : List Token)
    (docs : List ParameterDoc)
    (run : Run) : Prop where
  valid : Header.validate comments = .ok ()
  told :
    ∃ lines,
      classified config false comments = .ok lines ∧
        List.Forall₂ Told lines run.moves
  headers : Machine.countOf .gotHeader run.moves = docs.length
  optionHeaders :
    Machine.countOf .gotOptionHeader run.moves =
      (docs.flatMap ParameterDoc.options).length
  atStart : run.state = .start ↔ docs = []
  log :
    run.log =
      run.moves.map (Machine.Move.line Event.name Phase.name) ++
        [s!"Parsed {docs.length} documented parameters"]

/-- What the moves of a run tell that a fault has ended. -/
structure Run.Refused
    (config : Config)
    (comments : List Token)
    (fault : Fault)
    (run : Run) : Prop where
  told :
    ∃ front lines,
      front <+: comments ∧
        classified config false front = .ok lines ∧
          List.Forall₂ Told lines run.moves
  log : run.log = run.moves.map (Machine.Move.line Event.name Phase.name)
  silent : ∀ line ∈ run.log, ¬ "Parsed".toList <+: line.toList
  unexpected :
    ∀ comment phase,
      fault = .unreadable (.unexpectedComment comment phase) → phase = run.state.name
  foreign :
    ∀ comment,
      fault = .unreadable (.foreignOption comment) → run.state = .awaitingSeparator
  invalid :
    ∀ error,
      Header.validate comments = .error error →
        fault = .unreadable error ∧ run.state = .start ∧ run.log = []

/-- The names of events begin alike. -/
theorem Event.exists_name (event : Event) :
    ∃ rest, event.name.toList = 'G' :: rest := by
  cases event <;> exact ⟨_, rfl⟩

section Runs

variable
  {config : Config}
  {comments : List Token}
  {reader last : Reader}
  {comment : Token}
  {fault : Fault}

/-- A run finds a header of neither shape, reads its comments, or halts at one of them. -/
theorem run_cases
    (config : Config)
    (comments : List Token) :
    (∃ error,
        Header.validate comments = .error error ∧
          run config comments = ⟨.error (.unreadable error), .start, []⟩) ∨
      Header.validate comments = .ok () ∧
        ((∃ last final : Reader,
            Reader.Traced config comments last ∧
              last.finish = .ok final ∧
                run config comments =
                  ⟨.ok final.contents.docs, final.state, final.moves⟩) ∨
          ∃ front reached comment fault,
            front <+: comments ∧
              Reader.Traced config front reached ∧
                Reader.Halts config reached comment fault ∧
                  run config comments =
                    ⟨.error fault, reached.state, reached.moves⟩) := by
  have shape :
      run config comments = .ofScan (Reader.scan config .start comments) Contents.docs := rfl
  rw [shape, Reader.scan]
  cases checked : Header.validate comments with
  | error error => exact .inl ⟨error, rfl, rfl⟩
  | ok _ =>
      refine .inr ⟨rfl, ?_⟩
      have ends :=
        Machine.Run.ends_ofScan (Reader.step config) Reader.finish Contents.docs
          Reader.start comments
      simp only
      generalize Machine.Run.ofScan _ _ = result at ends ⊢
      cases ends with
      | closed reads finishes =>
          exact .inl ⟨_, _, Reader.traced_of_run reads, finishes, rfl⟩
      | @stopped front back comment reached fault split reads fails =>
          have traced := Reader.traced_of_run reads
          exact
            .inr
              ⟨front, reached, comment, fault, ⟨_, split.symm⟩, traced,
                Reader.halts_of_step traced.steady fails, rfl⟩
      | unclosed reads fails =>
          -- A steady reader can always close what is open at the end.
          obtain ⟨final, finishes⟩ := (Reader.steady_of_run reads).sound.exists_finish
          rw [finishes] at fails
          cases fails

/-- Closing what is open at the end makes no move. -/
theorem Reader.Traced.path_of_finish
    {final : Reader}
    (traced : Reader.Traced config comments last)
    (finishes : last.finish = .ok final) :
    Machine.Path table .start final.moves final.state := by
  obtain ⟨closed, _, rfl⟩ := map_eq_ok_iff.mp finishes
  exact traced.path

/-- A reader that has read a block to its end tells of all its entries. -/
theorem Reader.Traced.read
    {final : Reader}
    (valid : Header.validate comments = .ok ())
    (traced : Reader.Traced config comments last)
    (finishes : last.finish = .ok final) :
    Run.Read config comments final.contents.docs
      ⟨.ok final.contents.docs, final.state, final.moves⟩ := by
  obtain ⟨lines, sections, read, told, holds, inOrder⟩ := traced.told
  obtain ⟨closed, closes, rfl⟩ := map_eq_ok_iff.mp finishes
  obtain rfl := holds.eq_of_close closes
  exact
    { valid
      told := ⟨lines, read, told⟩
      headers := countOf_gotHeader told inOrder
      optionHeaders := countOf_gotOptionHeader told inOrder
      atStart := by
        rw [List.map_eq_nil_iff, ← holds.draft?_eq_none_iff]
        exact traced.steady.draft?_eq_none_iff
      log := Machine.Run.log_of_ok "documented parameters" _ _ _ }

theorem log_of_refused
    (fault : Fault)
    (phase : Phase)
    (moves : List Move) :
    Run.log ⟨.error fault, phase, moves⟩ =
      moves.map (Machine.Move.line Event.name Phase.name) :=
  Machine.Run.log_of_error "documented parameters" fault phase moves

theorem silent_of_refused
    {phase : Phase}
    {moves : List Move}
    {line : String}
    (member : line ∈ Run.log ⟨.error fault, phase, moves⟩) :
    ¬ "Parsed".toList <+: line.toList := by
  rw [log_of_refused] at member
  exact Machine.Run.not_parsed_of_mem_lines Event.exists_name member

/-- A reader that halts is refused in its phase, and tells of the comments in front. -/
theorem Reader.Traced.refused
    {front : List Token}
    (valid : Header.validate comments = .ok ())
    (inFront : front <+: comments)
    (traced : Reader.Traced config front reader)
    (halts : Reader.Halts config reader comment fault) :
    Run.Refused config comments fault
      ⟨.error fault, reader.state, reader.moves⟩ := by
  obtain ⟨lines, _, read, told, _⟩ := traced.told
  refine
    { told := ⟨front, lines, inFront, read, told⟩
      log := log_of_refused fault reader.state reader.moves
      silent := fun _ => silent_of_refused
      unexpected := ?_
      foreign := ?_
      invalid := ?_ }
  · rintro blamed phase rfl
    cases halts with
    | tooLong tooLong => exact (Fault.ofRun?_ne_unreadable tooLong).elim
    | unexpected => rfl
  · rintro blamed rfl
    cases halts with
    | tooLong tooLong => exact (Fault.ofRun?_ne_unreadable tooLong).elim
    | foreign awaits => exact awaits
  · intro error isInvalid
    rw [valid] at isInvalid
    cases isInvalid

/-- A header of neither shape is refused before the reader moves. -/
theorem refused_of_invalid
    {error : ParseError}
    (fails : Header.validate comments = .error error) :
    Run.Refused config comments (.unreadable error)
      ⟨.error (.unreadable error), .start, []⟩ := by
  have isInvalid : Header.validate comments ≠ .ok () := by simp [fails]
  obtain ⟨blamed, _, reported⟩ := Header.exists_of_validate_ne_ok isInvalid
  obtain rfl : .malformedHeader blamed = error :=
    Except.error.inj (reported.symm.trans fails)
  refine
    { told := ⟨[], [], List.nil_prefix, rfl, .nil⟩
      log := rfl
      silent := fun _ => silent_of_refused
      unexpected := ?_
      foreign := ?_
      invalid := ?_ }
  · rintro _ _ ⟨⟩
  · rintro _ ⟨⟩
  · intro error isError
    rw [fails] at isError
    cases isError
    exact ⟨rfl, rfl, rfl⟩

/--
The moves of a run are a path in the table from the start to the phase in which the
run ends. A run that is accepted made one move for each comment that is not skipped,
which tells the kind of its line; it fired as many headers as there are entries, and
as many option headers as these have options; it stays at the start only if there are
none; and it reports their number last. A run that is refused made one move for each
line of the comments in front, and reports no more; a comment that is not expected is
refused in the phase in which the run ends, an option of another entry where an option
may follow, and a header of neither shape before the first move.
-/
theorem run_tells_lines
    (config : Config)
    (comments : List Token) :
    Machine.Path table .start (run config comments).moves (run config comments).state ∧
      (∀ docs,
          (run config comments).outcome = .ok docs →
            (run config comments).Read config comments docs) ∧
        ∀ fault,
          (run config comments).outcome = .error fault →
            (run config comments).Refused config comments fault := by
  rcases run_cases config comments with
    ⟨error, fails, ran⟩ |
      ⟨valid, ⟨last, final, traced, finishes, ran⟩ |
        ⟨front, reached, comment, fault, inFront, traced, halts, ran⟩⟩
  · rw [ran]
    refine ⟨.nil, ?_, ?_⟩
    · rintro docs ⟨⟩
    · rintro _ ⟨⟩
      exact refused_of_invalid fails
  · rw [ran]
    refine ⟨traced.path_of_finish finishes, ?_, ?_⟩
    · rintro _ ⟨⟩
      exact traced.read valid finishes
    · rintro fault ⟨⟩
  · rw [ran]
    refine ⟨traced.path, ?_, ?_⟩
    · rintro docs ⟨⟩
    · rintro _ ⟨⟩
      exact traced.refused valid inFront halts

/-- An option of another entry is refused behind the description that it ends. -/
example :
    (run Config.standard
        [⟨.comment, " @param settings", ⟨1, 3⟩⟩, ⟨.comment, "   Settings.", ⟨2, 3⟩⟩,
          ⟨.comment, " @option server [Integer] :port", ⟨3, 3⟩⟩]).log =
      ["GOT_HEADER: start -> awaiting_description",
        "GOT_DESCRIPTION: awaiting_description -> awaiting_separator"] := by
  decide +kernel

end Runs

end DocAudit.DocBlock
