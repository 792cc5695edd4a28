import DocAudit.Proofs.DocBlock.Names
import DocAudit.Proofs.DocBlock.Pattern
import DocAudit.Proofs.DocBlock.Standing

namespace DocAudit.DocBlock

/-!
# Well laid lines

The lines of a block are well laid when their kinds begin a block of the pattern
and every option header names the last parameter header in front of it. These are
two separate conditions, one on the kinds alone and one on the names alone. The
automaton of standings has a way through the lines exactly when both hold.
-/

/-- The name of the last parameter header among lines. -/
def lastName? (contents : List CommentLine.Content) : Option String :=
  (contents.filterMap CommentLine.Content.headerName?).getLast?

/-- Every option header names the last parameter header in front of it. -/
def OptionsNamed (contents : List CommentLine.Content) : Prop :=
  ∀ before hash valueType name after,
    contents = before ++ .optionHeader hash valueType name :: after →
      lastName? before = some hash

/-- Lines that follow the pattern, with options that name their entry. -/
structure WellLaid (contents : List CommentLine.Content) : Prop where
  begins : Pattern.Begins (contents.map CommentLine.Content.kind)
  named : OptionsNamed contents

theorem lastName?_concat
    (contents : List CommentLine.Content)
    (content : CommentLine.Content) :
    lastName? (contents ++ [content]) =
      content.headerName?.or (lastName? contents) := by
  cases name? : content.headerName? <;>
    simp [lastName?, name?]

/-- Only an option header at the end has to be looked at anew. -/
theorem optionsNamed_concat_iff
    {contents : List CommentLine.Content}
    {content : CommentLine.Content} :
    OptionsNamed (contents ++ [content]) ↔
      OptionsNamed contents ∧
        ∀ hash valueType name,
          content = .optionHeader hash valueType name → lastName? contents = some hash := by
  constructor
  · intro named
    constructor
    · rintro before hash valueType name after rfl
      exact named before hash valueType name (after ++ [content]) (by simp)
    · rintro hash valueType name rfl
      exact named contents hash valueType name [] rfl
  · rintro ⟨named, atEnd⟩ before hash valueType name after split
    rcases List.eq_nil_or_concat after with rfl | ⟨more, last, rfl⟩
    · obtain ⟨rfl, isOption⟩ := List.append_inj' split rfl
      exact atEnd hash valueType name (List.singleton_inj.mp isOption)
    · rw [List.concat_eq_append, ← List.cons_append, ← List.append_assoc] at split
      exact named before hash valueType name more (List.append_inj' split rfl).1

/-- What is in front of well laid lines is well laid. -/
theorem WellLaid.of_append
    {front back : List CommentLine.Content}
    (wellLaid : WellLaid (front ++ back)) :
    WellLaid front := by
  constructor
  · obtain ⟨rest, isBlock⟩ := wellLaid.begins
    rw [List.map_append, List.append_assoc] at isBlock
    exact ⟨_, isBlock⟩
  · rintro before hash valueType name after rfl
    exact wellLaid.named before hash valueType name (after ++ back) (by simp)

theorem wellLaid_nil : WellLaid [] where
  begins := Stage.begins_iff.mpr ⟨.start, rfl⟩
  named := by simp [OptionsNamed]

/-- Lines that are not well laid have a first one that spoils them. -/
theorem exists_first_spoiler
    {lines : List CommentLine}
    (spoiled : ¬ WellLaid (lines.map CommentLine.content)) :
    ∃ before line after,
      lines = before ++ line :: after ∧
        WellLaid (before.map CommentLine.content) ∧
          ¬ WellLaid ((before ++ [line]).map CommentLine.content) := by
  -- From the back: lines in front of the last one are spoiled already, or it spoils them.
  induction lines using List.reverseRecOn with
  | nil => exact (spoiled wellLaid_nil).elim
  | append_singleton lines line inductionHypothesis =>
      by_cases wellLaid : WellLaid (lines.map CommentLine.content)
      · exact ⟨lines, line, [], rfl, wellLaid, spoiled⟩
      · obtain ⟨before, first, after, rfl, inFront, spoils⟩ := inductionHypothesis wellLaid
        exact ⟨before, first, after ++ [line], by simp, inFront, spoils⟩

/-- A standing in the phase of a stage, with an option open if one is open there. -/
structure Standing.At
    (standing : Standing)
    (stage : Stage) : Prop where
  phase : standing.phase = stage.phase
  inOption : standing.inOption = stage.inOption

/-- What the table and the open option let through is what the stages let through. -/
theorem Standing.At.get?_table
    {standing : Standing}
    {stage : Stage}
    (isAt : standing.At stage)
    (content : CommentLine.Content) :
    table.get? (standing.phase, standing.eventOf content) =
      (stage.next? content.kind).map Stage.phase := by
  rcases standing with ⟨phase, name?, inOption⟩
  obtain ⟨rfl, rfl⟩ := isAt
  cases stage <;> cases content <;> rfl

/-- Where a line enters a phase of the next stage, it stands at that stage. -/
theorem Standing.At.enter
    {standing next : Standing}
    {stage target : Stage}
    {content : CommentLine.Content}
    (isAt : standing.At stage)
    (moves : stage.next? content.kind = some target)
    (enters : standing.enter target.phase content = some next) :
    next.At target := by
  rcases standing with ⟨phase, name?, inOption⟩
  obtain ⟨rfl, rfl⟩ := isAt
  cases content with
  | optionHeader hash valueType name =>
      simp only [Standing.enter, Option.ite_none_right_eq_some] at enters
      obtain ⟨_, ⟨⟩⟩ := enters
      cases stage <;> cases moves <;> exact ⟨rfl, rfl⟩
  | _ =>
      cases enters
      cases stage <;> cases moves <;> exact ⟨rfl, rfl⟩

/-- The name behind a line is that of its header, or the one in front of it. -/
theorem Standing.name?_of_enter
    {standing next : Standing}
    {phase : Phase}
    {content : CommentLine.Content}
    (enters : standing.enter phase content = some next) :
    next.name? = content.headerName?.or standing.name? := by
  cases content with
  | optionHeader hash valueType name =>
      simp only [Standing.enter, Option.ite_none_right_eq_some] at enters
      obtain ⟨_, ⟨⟩⟩ := enters
      rfl
  | _ =>
      cases enters
      rfl

/-- A standing that was reached over lines remembers their kinds and their last name. -/
structure Standing.Behind
    (standing : Standing)
    (contents : List CommentLine.Content) : Prop where
  stage :
    ∃ stage,
      Stage.start.reach? (contents.map CommentLine.Content.kind) = some stage ∧
        standing.At stage
  name : standing.name? = lastName? contents
  named : OptionsNamed contents

namespace Standing

theorem reach?_concat
    (standing : Standing)
    (contents : List CommentLine.Content)
    (content : CommentLine.Content) :
    standing.reach? (contents ++ [content]) =
      (standing.reach? contents).bind fun next => next.next? content := by
  rw [reach?_append]
  congr 1
  funext next
  change (next.next? content).bind some = next.next? content
  exact Option.bind_fun_some _

theorem behind_of_reach?
    {contents : List CommentLine.Content}
    {standing : Standing}
    (arrives : start.reach? contents = some standing) :
    standing.Behind contents := by
  induction contents using List.reverseRecOn generalizing standing with
  | nil =>
      cases arrives
      exact ⟨⟨.start, rfl, rfl, rfl⟩, rfl, wellLaid_nil.named⟩
  | append_singleton contents content inductionHypothesis =>
      rw [reach?_concat, Option.bind_eq_some_iff] at arrives
      obtain ⟨before, reached, moves⟩ := arrives
      have behind := inductionHypothesis reached
      obtain ⟨stage, stageReached, isAt⟩ := behind.stage
      obtain ⟨phase, lookup, enters⟩ := Option.bind_eq_some_iff.mp moves
      rw [isAt.get?_table, Option.map_eq_some_iff] at lookup
      obtain ⟨target, stageMoves, rfl⟩ := lookup
      refine ⟨⟨target, ?_, isAt.enter stageMoves enters⟩, ?_, ?_⟩
      · rw [List.map_append, List.map_singleton, Stage.reach?_concat, stageReached]
        exact stageMoves
      · rw [name?_of_enter enters, lastName?_concat, behind.name]
      · refine optionsNamed_concat_iff.mpr ⟨behind.named, ?_⟩
        rintro hash valueType name rfl
        simp only [enter, Option.ite_none_right_eq_some] at enters
        rw [← behind.name]
        exact enters.1

/-- The kinds alone decide whether the table has an entry for a line. -/
theorem Behind.get?_table_eq_none_iff
    {standing : Standing}
    {contents : List CommentLine.Content}
    (behind : standing.Behind contents)
    (content : CommentLine.Content) :
    table.get? (standing.phase, standing.eventOf content) = none ↔
      ¬ Pattern.Begins ((contents ++ [content]).map CommentLine.Content.kind) := by
  obtain ⟨stage, stageReached, isAt⟩ := behind.stage
  rw [isAt.get?_table, Stage.begins_iff, List.map_append, List.map_singleton,
    Stage.reach?_concat, stageReached, Option.bind_some, Option.map_eq_none_iff,
    ← Option.ne_none_iff_exists', Decidable.not_not]

/-- Behind well laid lines, an option header of another name is refused, and no other line. -/
theorem Behind.enter_eq_none_iff
    {standing : Standing}
    {contents : List CommentLine.Content}
    {content : CommentLine.Content}
    (behind : standing.Behind contents)
    (phase : Phase) :
    standing.enter phase content = none ↔ ¬ OptionsNamed (contents ++ [content]) := by
  rw [optionsNamed_concat_iff, ← behind.name]
  cases content with
  | optionHeader hash valueType name =>
      simp [enter, behind.named]
  | _ => simp [enter, behind.named]

/-- The automaton has a way through lines exactly when they are well laid. -/
theorem exists_reach?_iff
    {contents : List CommentLine.Content} :
    (∃ standing, start.reach? contents = some standing) ↔ WellLaid contents := by
  constructor
  · rintro ⟨standing, arrives⟩
    have behind := behind_of_reach? arrives
    obtain ⟨stage, stageReached, _⟩ := behind.stage
    exact ⟨Stage.begins_iff.mpr ⟨stage, stageReached⟩, behind.named⟩
  · intro wellLaid
    induction contents using List.reverseRecOn with
    | nil => exact ⟨start, rfl⟩
    | append_singleton contents content inductionHypothesis =>
        obtain ⟨before, reached⟩ := inductionHypothesis wellLaid.of_append
        have behind := behind_of_reach? reached
        rw [reach?_concat, reached, Option.bind_some, ← Option.ne_none_iff_exists']
        intro stuck
        cases lookup : table.get? (before.phase, before.eventOf content) with
        | none => exact (behind.get?_table_eq_none_iff content).mp lookup wellLaid.begins
        | some phase =>
            rw [next?, lookup] at stuck
            have refused : before.enter phase content = none := stuck
            exact (behind.enter_eq_none_iff phase).mp refused wellLaid.named

end Standing

end DocAudit.DocBlock
