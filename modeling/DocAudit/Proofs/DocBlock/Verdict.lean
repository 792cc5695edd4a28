import DocAudit.Proofs.DocBlock.Answer
import DocAudit.Proofs.DocBlock.WellLaid

namespace DocAudit.DocBlock

/-!
# The verdict on a block

A block whose header lines have passed the check is accepted exactly when its
documentation lines are well laid. Otherwise the first line that spoils them is
reported: as unexpected in the phase of the reader where the pattern is left, and
as a foreign option where only the name is wrong. The main statement is
`docs_follow_layout`.
-/

/--
The first line of a block that spoils its documentation lines, and the error that
it deserves. The phase is the one in which the comments in front of it end.
-/
inductive Breaks (config : Config) : List Token → ParseError → Prop where
  | pattern
      {front back : List Token}
      {before : List CommentLine}
      {line : CommentLine}
      (inFront : documentationLines config front = .ok before)
      (upTo : documentationLines config (front ++ [line.comment]) = .ok (before ++ [line]))
      (wellLaid : WellLaid (before.map CommentLine.content))
      (leaves :
        ¬ Pattern.Begins
            ((before.map CommentLine.content ++ [line.content]).map
              CommentLine.Content.kind)) :
      Breaks config (front ++ line.comment :: back)
        (.unexpectedComment line.comment (run config front).state.name)
  | name
      {front back : List Token}
      {before : List CommentLine}
      {line : CommentLine}
      (inFront : documentationLines config front = .ok before)
      (upTo : documentationLines config (front ++ [line.comment]) = .ok (before ++ [line]))
      (wellLaid : WellLaid (before.map CommentLine.content))
      (stays :
        Pattern.Begins
          ((before.map CommentLine.content ++ [line.content]).map
            CommentLine.Content.kind))
      (foreign : ¬ OptionsNamed (before.map CommentLine.content ++ [line.content])) :
      Breaks config (front ++ line.comment :: back) (.foreignOption line.comment)

/-- What follows a block that is broken does not mend it. -/
theorem Breaks.append
    {config : Config}
    {comments : List Token}
    {error : ParseError}
    (breaks : Breaks config comments error)
    (more : List Token) :
    Breaks config (comments ++ more) error := by
  cases breaks with
  | pattern inFront upTo wellLaid leaves =>
      rw [List.append_assoc]
      exact .pattern inFront upTo wellLaid leaves
  | name inFront upTo wellLaid stays foreign =>
      rw [List.append_assoc]
      exact .name inFront upTo wellLaid stays foreign

namespace Reader

variable {reader : Reader} {line : CommentLine} {contents : List CommentLine.Content}

/-- A line that leaves the pattern is reported with the phase of the reader. -/
theorem take_of_not_begins
    (behind : reader.standing.Behind contents)
    (leaves :
      ¬ Pattern.Begins ((contents ++ [line.content]).map CommentLine.Content.kind)) :
    take reader line =
      .error (.unreadable (.unexpectedComment line.comment reader.state.name)) := by
  have lookup := (behind.get?_table_eq_none_iff line.content).mpr leaves
  unfold standing at lookup
  rw [Contents.eventOf_standing] at lookup
  change table.get? (reader.state, reader.contents.eventOf line) = none at lookup
  simp only [take, Machine.Situation.fire, lookup]

/-- Where anything but a parameter header may follow, an entry is open. -/
theorem Sound.exists_name
    {event : Event}
    {phase : Phase}
    (sound : Sound reader)
    (notHeader : event ≠ .gotHeader)
    (lookup : table.get? (reader.state, event) = some phase) :
    ∃ name, reader.standing.name? = some name := by
  rw [← Option.ne_none_iff_exists']
  intro noEntry
  have atStart : reader.state = .start := sound.begun noEntry
  rw [atStart] at lookup
  cases event with
  | gotHeader => exact notHeader rfl
  | _ => cases lookup

/-- A line that stays in the pattern but names another entry is reported as foreign. -/
theorem take_of_not_named
    (sound : Sound reader)
    (behind : reader.standing.Behind contents)
    (stays :
      Pattern.Begins ((contents ++ [line.content]).map CommentLine.Content.kind))
    (foreign : ¬ OptionsNamed (contents ++ [line.content])) :
    take reader line = .error (.unreadable (.foreignOption line.comment)) := by
  rcases line with ⟨comment, content⟩
  cases content with
  | optionHeader hash valueType name =>
      have noEntry_iff :
          table.get? (reader.state, .gotOptionHeader) = none ↔
            ¬ Pattern.Begins
                ((contents ++ [CommentLine.Content.optionHeader hash valueType name]).map
                  CommentLine.Content.kind) :=
        behind.get?_table_eq_none_iff (.optionHeader hash valueType name)
      have hasEntry :
          ∃ phase, table.get? (reader.state, .gotOptionHeader) = some phase := by
        rw [← Option.ne_none_iff_exists']
        exact fun noEntry => noEntry_iff.mp noEntry stays
      obtain ⟨phase, lookup⟩ := hasEntry
      have refused := (behind.enter_eq_none_iff phase).mpr foreign
      have otherName : reader.standing.name? ≠ some hash := by
        simpa [Standing.enter] using refused
      obtain ⟨entryName, isEntry⟩ := sound.exists_name (by decide) lookup
      rw [isEntry] at otherName
      have refusal :=
        Contents.openOption_eq_error isEntry (fun same => otherName (congrArg some same))
          valueType name comment
      have event :
          reader.contents.eventOf ⟨comment, .optionHeader hash valueType name⟩ =
            .gotOptionHeader := rfl
      simp only [take, Machine.Situation.fire, event, lookup, Contents.accept, refusal]
  | _ => exact (foreign (optionsNamed_concat_iff.mpr ⟨behind.named, by simp⟩)).elim

/-- Lines that lead the automaton to an end are taken. -/
theorem run_take_of_reach?
    {lines : List CommentLine}
    {target : Standing}
    (sound : Sound reader)
    (arrives : reader.standing.reach? (lines.map CommentLine.content) = some target) :
    ∃ last,
      Machine.Scan.run take reader lines = .finished last ∧
        Sound last ∧ last.standing = target := by
  induction lines generalizing reader with
  | nil => exact ⟨reader, rfl, sound, Option.some.inj arrives⟩
  | cons line rest inductionHypothesis =>
      rw [List.map_cons, Standing.reach?_cons, Option.bind_eq_some_iff] at arrives
      obtain ⟨standing, firstMove, restMoves⟩ := arrives
      obtain ⟨next, takes, rfl⟩ := sound.exists_take line firstMove
      obtain ⟨last, runs, lastSound, isTarget⟩ :=
        inductionHypothesis (sound.take takes) restMoves
      refine ⟨last, ?_, lastSound, isTarget⟩
      rw [Machine.Scan.run, takes]
      exact runs

/-- Well laid lines are taken to their end. -/
theorem run_take_of_wellLaid
    {lines : List CommentLine}
    (wellLaid : WellLaid (lines.map CommentLine.content)) :
    ∃ last,
      Machine.Scan.run take start lines = .finished last ∧
        Sound last ∧ last.standing.Behind (lines.map CommentLine.content) := by
  obtain ⟨target, arrives⟩ := Standing.exists_reach?_iff.mpr wellLaid
  obtain ⟨last, runs, lastSound, rfl⟩ := run_take_of_reach? sound_start arrives
  exact ⟨last, runs, lastSound, Standing.behind_of_reach? arrives⟩

/-- A line that is refused behind others that were taken decides the answer of its block. -/
theorem docs_of_refused
    {config : Config}
    {front back : List Token}
    {before : List CommentLine}
    {last : Reader}
    {fault : Fault}
    (valid : Header.validate (front ++ line.comment :: back) = .ok ())
    (upTo : documentationLines config (front ++ [line.comment]) = .ok (before ++ [line]))
    (runs : Machine.Scan.run take start before = .finished last)
    (refused : take last line = .error fault) :
    DocBlock.docs config (front ++ line.comment :: back) = .error fault := by
  have stops :
      Machine.Scan.run (step config) start (front ++ [line.comment]) =
        .stopped last fault := by
    rw [run_step_start upTo, Machine.Scan.run_append_of_error, runs]
    · rfl
    · intro other runsTo
      rw [runs] at runsTo
      cases runsTo
      exact refused
  have reads :
      Machine.Scan.run (step config) start (front ++ line.comment :: back) =
        .stopped last fault := by
    rw [← List.singleton_append, ← List.append_assoc, Machine.Scan.run_append, stops]
    rfl
  exact docs_of_stopped valid reads

end Reader

/-- The first line that spoils a block is the one that is reported. -/
theorem docs_of_breaks
    {config : Config}
    {comments : List Token}
    {error : ParseError}
    (valid : Header.validate comments = .ok ())
    (breaks : Breaks config comments error) :
    DocBlock.docs config comments = .error (.unreadable error) := by
  cases breaks with
  | @pattern front back before line inFront upTo wellLaid leaves =>
      obtain ⟨last, runs, sound, behind⟩ := Reader.run_take_of_wellLaid wellLaid
      have reads : Machine.Scan.run (Reader.step config) .start front = .finished last :=
        (Reader.run_step_start inFront).trans runs
      rw [state_of_finished (validate_left valid) reads]
      exact Reader.docs_of_refused valid upTo runs (Reader.take_of_not_begins behind leaves)
  | @name front back before line inFront upTo wellLaid stays foreign =>
      obtain ⟨last, runs, sound, behind⟩ := Reader.run_take_of_wellLaid wellLaid
      exact
        Reader.docs_of_refused valid upTo runs
          (Reader.take_of_not_named sound behind stays foreign)

/-- Documentation lines that are not well laid break their block somewhere. -/
theorem exists_breaks
    {config : Config}
    {comments : List Token}
    {lines : List CommentLine}
    (read : documentationLines config comments = .ok lines)
    (spoiled : ¬ WellLaid (lines.map CommentLine.content)) :
    ∃ error, Breaks config comments error := by
  obtain ⟨before, line, after, rfl, wellLaid, spoils⟩ := exists_first_spoiler spoiled
  obtain ⟨front, back, rfl, inFront, upTo⟩ := exists_split_of_documentationLines read
  rw [List.map_append, List.map_singleton] at spoils
  by_cases stays :
      Pattern.Begins
        ((before.map CommentLine.content ++ [line.content]).map CommentLine.Content.kind)
  · have foreign : ¬ OptionsNamed (before.map CommentLine.content ++ [line.content]) :=
      fun named => spoils ⟨stays, named⟩
    exact ⟨_, .name inFront upTo wellLaid stays foreign⟩
  · exact ⟨_, .pattern inFront upTo wellLaid stays⟩

/-- Documentation lines that are well laid are accepted. -/
theorem exists_docs_of_wellLaid
    {config : Config}
    {comments : List Token}
    {lines : List CommentLine}
    (valid : Header.validate comments = .ok ())
    (read : documentationLines config comments = .ok lines)
    (wellLaid : WellLaid (lines.map CommentLine.content)) :
    ∃ docs, DocBlock.docs config comments = .ok docs := by
  obtain ⟨last, runs, sound, _⟩ := Reader.run_take_of_wellLaid wellLaid
  obtain ⟨final, finishes⟩ := sound.exists_finish
  have reads : Machine.Scan.run (Reader.step config) .start comments = .finished last :=
    (Reader.run_step_start read).trans runs
  refine ⟨final.contents.docs, ?_⟩
  rw [docs_of_finished valid reads, finishes]
  rfl

/--
A comment of a block whose headers have their shapes can be read, unless no run of
spaces as long as the description indent can be made.
-/
theorem ofRun?_of_unreadable
    {config : Config}
    {comments : List Token}
    {fault : Fault}
    (valid : Header.validate comments = .ok ())
    (headed :
      ∀ comment ∈ comments,
        comment.mentionsParam = true →
          ∃ name, Header.ofComment? comment = some (.param name))
    (failed : documentationLines config comments = .error fault) :
    Fault.ofRun? config.descriptionIndent = some fault := by
  obtain ⟨front, comment, back, before, rfl, _, unreadable, _⟩ :=
    Reader.run_step_start_of_unreadable failed
  have member : comment ∈ front ++ comment :: back := by simp
  rcases CommentLine.read_eq_error unreadable with ⟨_, malformed⟩ | tooLong
  · rcases malformed with ⟨mentionsParam, noParam⟩ | ⟨mentionsOption, noShape⟩
    · obtain ⟨name, isParam⟩ := headed comment member mentionsParam
      exact (noParam name isParam).elim
    · have isHeaderLine : comment.isHeaderLine = true := by
        simp [Token.isHeaderLine, mentionsOption]
      have shaped := Header.validate_eq_ok_iff.mp valid comment member isHeaderLine
      simp [noShape] at shaped
  · exact tooLong

/-- Where a comment cannot be read, its fault is the answer unless the block breaks earlier. -/
theorem docs_of_unreadable
    {config : Config}
    {comments : List Token}
    {fault : Fault}
    (valid : Header.validate comments = .ok ())
    (failed : documentationLines config comments = .error fault)
    (unbroken : ¬ ∃ error, Breaks config comments error) :
    DocBlock.docs config comments = .error fault := by
  obtain ⟨front, comment, back, before, rfl, inFront, _, reads⟩ :=
    Reader.run_step_start_of_unreadable failed
  by_cases wellLaid : WellLaid (before.map CommentLine.content)
  · obtain ⟨last, runs, _⟩ := Reader.run_take_of_wellLaid wellLaid
    rw [runs] at reads
    exact docs_of_stopped valid reads
  · obtain ⟨error, breaks⟩ := exists_breaks inFront wellLaid
    exact (unbroken ⟨error, breaks.append _⟩).elim

/--
A block whose headers have their shapes is accepted exactly when its documentation
lines are well laid. Otherwise the first line that spoils them is reported. The
documentation lines are unknown only where no run of spaces as long as the
description indent can be made; that fault is then the answer, unless the block
breaks in front of it.
-/
theorem docs_follow_layout
    {config : Config}
    {comments : List Token}
    (valid : Header.validate comments = .ok ())
    (headed :
      ∀ comment ∈ comments,
        comment.mentionsParam = true →
          ∃ name, Header.ofComment? comment = some (.param name)) :
    (∀ lines,
        documentationLines config comments = .ok lines →
          ((∃ docs, DocBlock.docs config comments = .ok docs) ↔
              Pattern.Begins
                  ((lines.map CommentLine.content).map CommentLine.Content.kind) ∧
                OptionsNamed (lines.map CommentLine.content)) ∧
            ((¬ ∃ docs, DocBlock.docs config comments = .ok docs) →
              ∃ error, Breaks config comments error)) ∧
      (∀ error,
        Breaks config comments error →
          DocBlock.docs config comments = .error (.unreadable error)) ∧
        ∀ fault,
          documentationLines config comments = .error fault →
            Fault.ofRun? config.descriptionIndent = some fault ∧
              ((¬ ∃ error, Breaks config comments error) →
                DocBlock.docs config comments = .error fault) := by
  refine ⟨?_, fun error => docs_of_breaks valid, ?_⟩
  · intro lines read
    have accepted_iff :
        (∃ docs, DocBlock.docs config comments = .ok docs) ↔
          WellLaid (lines.map CommentLine.content) := by
      constructor
      · rintro ⟨docs, answers⟩
        by_contra spoiled
        obtain ⟨error, breaks⟩ := exists_breaks read spoiled
        rw [docs_of_breaks valid breaks] at answers
        cases answers
      · exact exists_docs_of_wellLaid valid read
    refine ⟨accepted_iff.trans ⟨fun laid => ⟨laid.begins, laid.named⟩, ?_⟩, ?_⟩
    · exact fun ⟨begins, named⟩ => ⟨begins, named⟩
    · exact fun refused => exists_breaks read (mt accepted_iff.mpr refused)
  · intro fault failed
    exact ⟨ofRun?_of_unreadable valid headed failed, docs_of_unreadable valid failed⟩

/-- The option of another hash than the one that is documented. -/
def strayOption : Token :=
  ⟨.comment, " @option other [Boolean] :enabled", .first⟩

/-- A hash with two paragraphs and a stray option. -/
def strayBlock : List Token :=
  [⟨.comment, " Reads the settings.", .first⟩, ⟨.comment, " @param settings", .first⟩,
    ⟨.comment, "   Settings.", .first⟩, ⟨.comment, "", .first⟩,
    ⟨.comment, "   More of them.", .first⟩, strayOption,
    ⟨.comment, "   Whether it runs.", .first⟩]

/-- The stray option is the first line that spoils its block. -/
theorem breaks_strayBlock :
    Breaks Config.standard strayBlock (.foreignOption strayOption) := by
  have misnamed :
      ¬ OptionsNamed
          [.header "settings", .description, .separator, .description,
            .optionHeader "other" "Boolean" "enabled"] := by
    intro named
    have sameName :=
      named [.header "settings", .description, .separator, .description] "other"
        "Boolean" "enabled" [] rfl
    exact absurd sameName (by decide)
  refine
    @Breaks.name Config.standard (strayBlock.take 5) (strayBlock.drop 6) _
      ⟨strayOption, .optionHeader "other" "Boolean" "enabled"⟩ rfl rfl ?_ ?_ misnamed
  · exact Standing.exists_reach?_iff.mp ⟨_, rfl⟩
  · exact Stage.begins_iff.mpr ⟨_, rfl⟩

/-- The stray option is reported. -/
theorem docs_follow_layout_strayBlock :
    Header.validate strayBlock = .ok () ∧
      DocBlock.docs Config.standard strayBlock =
        .error (.unreadable (.foreignOption strayOption)) := by
  have valid : Header.validate strayBlock = .ok () := rfl
  have headed :
      ∀ comment ∈ strayBlock,
        comment.mentionsParam = true →
          ∃ name, Header.ofComment? comment = some (.param name) := by
    intro comment member mentions
    have isHeader : comment ∈ strayBlock.filter Token.mentionsParam :=
      List.mem_filter.mpr ⟨member, mentions⟩
    obtain rfl : comment = ⟨.comment, " @param settings", .first⟩ :=
      List.mem_singleton.mp isHeader
    exact ⟨"settings", rfl⟩
  obtain ⟨_, reported, _⟩ := @docs_follow_layout Config.standard _ valid headed
  exact ⟨valid, reported _ breaks_strayBlock⟩

end DocAudit.DocBlock
