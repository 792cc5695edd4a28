import DocAudit.Proofs.DocBlock.Answer

namespace DocAudit.DocBlock

/-!
# Blocks in a row

A parameter header closes whatever is open, so a reader that takes one forgets
all about the entries in front of it except that they are finished. It reads on
as a new reader would that starts with the header, and the finished entries stay
in front. A block that ends where a header may follow, and a block that starts
with a header, can therefore be read one by one. The main statement is
`docs_append_header`.
-/

namespace Contents

/-- Contents with entries that were finished earlier in front. -/
def behind
    (contents : Contents)
    (earlier : List ParameterDoc) :
    Contents :=
  { contents with docs := earlier ++ contents.docs }

variable
  (contents : Contents)
  (earlier : List ParameterDoc)

/-! What is open decides what a line does; the finished entries only stay in front. -/

theorem closeOption_behind :
    (contents.behind earlier).closeOption = contents.closeOption.behind earlier := by
  rcases contents with ⟨draft?, option?, docs⟩
  cases option? <;> cases draft? <;> rfl

/-- Closing the open entry does not touch the open option. -/
theorem option?_of_closeEntry
    {contents closed : Contents}
    (closes : contents.closeEntry = .ok closed) :
    closed.option? = contents.option? := by
  unfold closeEntry at closes
  split at closes
  · cases closes
    rfl
  · obtain ⟨doc, _, rfl⟩ := map_eq_ok_iff.mp closes
    rfl

theorem closeEntry_behind :
    (contents.behind earlier).closeEntry =
      contents.closeEntry.map fun closed => closed.behind earlier := by
  rcases contents with ⟨draft?, option?, docs⟩
  cases draft? with
  | none => rfl
  | some entry =>
      cases finished : entry.doc <;>
        simp [closeEntry, behind, finished, Except.map]

/-- Closing all that is open leaves the finished entries in front. -/
theorem close_behind :
    (contents.behind earlier).closeOption.closeEntry =
      contents.closeOption.closeEntry.map fun closed => closed.behind earlier := by
  rw [closeOption_behind]
  exact closeEntry_behind _ earlier

theorem openEntry_behind
    (name : String)
    (comment : Token) :
    (contents.behind earlier).openEntry name comment =
      (contents.openEntry name comment).map fun opened => opened.behind earlier := by
  unfold openEntry
  rw [close_behind]
  cases contents.closeOption.closeEntry <;> rfl

theorem openOption_behind
    (hash valueType name : String)
    (comment : Token) :
    (contents.behind earlier).openOption hash valueType name comment =
      (contents.openOption hash valueType name comment).map fun opened =>
        opened.behind earlier := by
  have sameDraft :
      (contents.closeOption.behind earlier).draft? = contents.closeOption.draft? := rfl
  simp only [openOption, closeOption_behind, sameDraft]
  cases contents.closeOption.draft? with
  | none => rfl
  | some entry => by_cases sameName : hash = entry.name <;> simp [sameName, Except.map, behind]

theorem describe_behind (text : String) :
    (contents.behind earlier).describe text = (contents.describe text).behind earlier := by
  rcases contents with ⟨draft?, option?, docs⟩
  cases option? <;> cases draft? <;> rfl

theorem accept_behind (line : CommentLine) :
    (contents.behind earlier).accept line =
      (contents.accept line).map fun next => next.behind earlier := by
  rcases line with ⟨comment, content⟩
  cases content with
  | header name => exact openEntry_behind contents earlier name comment
  | optionHeader hash valueType name =>
      exact openOption_behind contents earlier hash valueType name comment
  | separator => rfl
  | description => exact congrArg Except.ok (describe_behind contents earlier _)

end Contents

namespace Reader

/-- A reader that stands where another one does, with finished entries in front. -/
structure Resumes
    (earlier : List ParameterDoc)
    (alone resumed : Reader) : Prop where
  state : resumed.state = alone.state
  contents : resumed.contents = alone.contents.behind earlier

variable
  {config : Config}
  {alone resumed last final : Reader}
  {earlier : List ParameterDoc}

theorem Resumes.take
    (resumes : Resumes earlier alone resumed)
    (line : CommentLine) :
    Alike (Resumes earlier) (Reader.take alone line) (Reader.take resumed line) := by
  have sameEvent : resumed.contents.eventOf line = alone.contents.eventOf line := by
    rw [resumes.contents]
    rfl
  have sameChange :
      resumed.contents.accept line =
        (alone.contents.accept line).map fun next => next.behind earlier := by
    rw [resumes.contents]
    exact Contents.accept_behind alone.contents earlier line
  simp only [Reader.take, Machine.Situation.fire, sameEvent, sameChange, resumes.state]
  cases table.get? (alone.state, alone.contents.eventOf line) with
  | none => exact .error
  | some target =>
      cases alone.contents.accept line with
      | error fault => exact .error
      | ok next => exact .ok ⟨rfl, rfl⟩

/-- A comment does the same to a reader that has finished entries in front. -/
theorem Resumes.step
    (resumes : Resumes earlier alone resumed)
    (comment : Token) :
    Alike (Resumes earlier) (Reader.step config alone comment)
      (Reader.step config resumed comment) := by
  have sameStart : resumed.contents.started = alone.contents.started := by
    rw [resumes.contents]
    rfl
  unfold Reader.step
  rw [sameStart]
  cases CommentLine.read config alone.contents.started comment with
  | error fault => exact .error
  | ok line? =>
      cases line? with
      | none => exact .ok resumes
      | some line => exact resumes.take line

theorem Resumes.finish
    (resumes : Resumes earlier alone resumed) :
    (Reader.finish resumed).map (fun closed => closed.contents.docs) =
      ((Reader.finish alone).map fun closed => closed.contents.docs).map
        (earlier ++ ·) := by
  unfold Reader.finish
  rw [resumes.contents, Contents.close_behind]
  cases alone.contents.closeOption.closeEntry <;> rfl

/-- What was finished earlier stays in front of what a block adds to it. -/
theorem Resumes.outcome_scan
    (resumes : Resumes earlier alone resumed)
    (comments : List Token) :
    ((Machine.Scan.run (Reader.step config) resumed comments).andThen Reader.finish).outcome
        (fun reader => reader.contents.docs) =
      (((Machine.Scan.run (Reader.step config) alone comments).andThen
          Reader.finish).outcome
        fun reader => reader.contents.docs).map (earlier ++ ·) :=
  Machine.Scan.outcome_eq_map_of_related (fun comment related => related.step comment)
    (fun related => related.finish) resumes comments

/-- What the end of the block would finish, a header finishes before it opens an entry. -/
theorem take_header
    (rests : last.state = .start ∨ last.state = .awaitingHeader)
    (finishes : Reader.finish last = .ok final)
    (name : String)
    (comment : Token) :
    Reader.take last ⟨comment, .header name⟩ =
      .ok
        { state := .awaitingDescription
          moves := last.moves ++ [⟨.gotHeader, last.state, .awaitingDescription⟩]
          contents :=
            { draft? := some (.ofHeader name comment)
              option? := none
              docs := final.contents.docs } } := by
  have lookup : table.get? (last.state, .gotHeader) = some .awaitingDescription := by
    rcases rests with atStart | atHeader
    · rw [atStart]
      rfl
    · rw [atHeader]
      rfl
  obtain ⟨closed, closes, rfl⟩ := map_eq_ok_iff.mp finishes
  have noOption : closed.option? = none := by
    rw [Contents.option?_of_closeEntry closes]
    exact Contents.option?_closeOption last.contents
  have opens :
      last.contents.openEntry name comment =
        .ok
          { draft? := some (.ofHeader name comment)
            option? := none
            docs := closed.docs } := by
    rw [Contents.openEntry, closes, ← noOption]
    rfl
  have event : last.contents.eventOf ⟨comment, .header name⟩ = .gotHeader := rfl
  simp only [Reader.take, Machine.Situation.fire, event, lookup, Contents.accept, opens]

/-- Where a header may follow, it does the same as at the start, behind what is finished. -/
theorem step_header
    {header : Token}
    (rests : last.state = .start ∨ last.state = .awaitingHeader)
    (finishes : Reader.finish last = .ok final)
    (mentions : header.mentionsParam = true) :
    Alike (Resumes final.contents.docs) (Reader.step config start header)
      (Reader.step config last header) := by
  unfold Reader.step
  rw [CommentLine.read_of_mentionsParam config last.contents.started mentions,
    CommentLine.read_of_mentionsParam config start.contents.started mentions]
  cases read : CommentLine.read config true header with
  | error fault => exact .error
  | ok line? =>
      rcases CommentLine.read_eq_ok read with ⟨_, name, rfl, _⟩ | ⟨silent, _⟩
      · have atStart : Reader.finish start = .ok start := rfl
        simp only [take_header rests finishes, take_header (.inl rfl) atStart]
        apply Alike.ok
        exact ⟨rfl, by simp [Contents.behind, start, Machine.Situation.initial, Contents.blank]⟩
      · rw [mentions] at silent
        cases silent

end Reader

section Division

variable
  {config : Config}
  {before after : List Token}
  {header : Token}
  {answer : List ParameterDoc}

/-- Behind header lines that have their shapes, the check blames what it blames alone. -/
theorem validate_append
    (valid : Header.validate before = .ok ())
    (comments : List Token) :
    Header.validate (before ++ comments) = Header.validate comments := by
  have noneFound : Header.firstMalformed? before = none := by
    unfold Header.validate at valid
    cases found : Header.firstMalformed? before with
    | none => rfl
    | some blamed => simp [found] at valid
  have sameFound :
      Header.firstMalformed? (before ++ comments) = Header.firstMalformed? comments := by
    unfold Header.firstMalformed? at noneFound ⊢
    rw [List.find?_append, noneFound, Option.none_or]
  rw [Header.validate, Header.validate, sameFound]

/--
A block that starts with a line that mentions the parameter marker is read behind
a block that was accepted, and ended where a header may follow, as if it stood
alone: its entries follow those in front, and its fault is the fault of the whole.
-/
theorem docs_append_header
    (read : DocBlock.docs config before = .ok answer)
    (rests :
      (run config before).state = .start ∨ (run config before).state = .awaitingHeader)
    (mentions : header.mentionsParam = true) :
    DocBlock.docs config (before ++ header :: after) =
      (DocBlock.docs config (header :: after)).map (answer ++ ·) := by
  obtain ⟨valid, last, final, reads, finishes, rfl⟩ := exists_run_of_docs read
  rw [state_of_finished valid reads] at rests
  have sameCheck := validate_append valid (header :: after)
  cases checked : Header.validate (header :: after) with
  | error error =>
      rw [docs_of_invalid checked, docs_of_invalid (sameCheck.trans checked)]
      rfl
  | ok _ =>
      have readsOn :
          Machine.Scan.run (Reader.step config) .start (before ++ header :: after) =
            Machine.Scan.run (Reader.step config) last (header :: after) := by
        rw [Machine.Scan.run_append, reads]
        rfl
      rw [docs_of_valid checked, docs_of_valid (sameCheck.trans checked), readsOn,
        Machine.Scan.outcome_run_cons, Machine.Scan.outcome_run_cons]
      apply (Reader.step_header rests finishes mentions).bind_eq_map
      intro alone resumed resumes
      exact resumes.outcome_scan after

end Division

/-- A hash with an option, and the empty line behind it. -/
def optionBlock : List Token :=
  [⟨.comment, " @param settings", ⟨1, 1⟩⟩, ⟨.comment, "   Settings.", ⟨2, 1⟩⟩,
    ⟨.comment, " @option settings [Boolean] :enabled", ⟨3, 1⟩⟩,
    ⟨.comment, "   Whether it runs.", ⟨4, 1⟩⟩, ⟨.comment, "", ⟨5, 1⟩⟩]

/-- The entry of the hash. -/
def optionDoc : ParameterDoc where
  name := "settings"
  description := "Settings."
  options := [⟨"settings", "enabled", "Boolean", "Whether it runs.", 3⟩]
  line := 1

/-- What follows the hash is read on its own, and its option is closed all the same. -/
theorem docs_append_header_optionBlock :
    DocBlock.docs Config.standard optionBlock = .ok [optionDoc] ∧
      (run Config.standard optionBlock).state = .awaitingHeader ∧
        DocBlock.docs Config.standard
            (optionBlock ++
              [⟨.comment, " @param name", ⟨6, 1⟩⟩, ⟨.comment, "   A name.", ⟨7, 1⟩⟩]) =
          (DocBlock.docs Config.standard
              [⟨.comment, " @param name", ⟨6, 1⟩⟩, ⟨.comment, "   A name.", ⟨7, 1⟩⟩]).map
            ([optionDoc] ++ ·) := by
  have read : DocBlock.docs Config.standard optionBlock = .ok [optionDoc] := by
    decide +kernel
  have rests : (run Config.standard optionBlock).state = .awaitingHeader := by
    decide +kernel
  exact ⟨read, rests, docs_append_header read (.inr rests) (by decide +kernel)⟩

end DocAudit.DocBlock
