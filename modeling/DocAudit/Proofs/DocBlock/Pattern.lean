import Mathlib.Computability.Language
import Mathlib.Order.CompletePartialOrder
import DocAudit.CommentLine
import DocAudit.DocBlock.Phase

namespace DocAudit

/-!
# The pattern of documentation lines

Seen from afar, a documentation line is one of four kinds. The kinds of a block
follow a pattern: entry after entry, each with a separator behind it, where an
entry is a header, paragraphs of description with separators between them, and
options with their descriptions. The transition table alone says less, because an
option that stays open across a separator lets only a header follow. What the
table and the open option let through together is exactly what begins a block of
this pattern.
-/

/-- The kinds of documentation lines. -/
inductive CommentLine.Kind where
  | header
  | optionHeader
  | separator
  | description
  deriving Repr, DecidableEq

/-- The kind of a line. -/
def CommentLine.Content.kind : CommentLine.Content → CommentLine.Kind
  | .header _ => .header
  | .optionHeader _ _ _ => .optionHeader
  | .separator => .separator
  | .description => .description

namespace DocBlock

open scoped Computability

open CommentLine (Kind)

namespace Pattern

/-- One line of a kind. -/
def one (kind : Kind) : Language Kind :=
  {[kind]}

/-- One or more description lines. -/
def passage : Language Kind :=
  one .description * (one .description)∗

/-- A header, its paragraphs with separators between them, and its options. -/
def entry : Language Kind :=
  one .header * passage * (one .separator * passage)∗ *
    (one .optionHeader * passage)∗

/-- Entries with a separator behind each of them. -/
def block : Language Kind :=
  (entry * one .separator)∗

/-- Paragraphs of description lines with separators between them. -/
def paragraphs : Language Kind :=
  (passage * one .separator)∗ * passage

/-- Kinds that can be continued to a block. -/
def Begins (kinds : List Kind) : Prop :=
  ∃ rest, kinds ++ rest ∈ block

end Pattern

namespace Pattern

/-! What may follow a part of the pattern becomes part of it. -/

theorem one_le_passage : one .description ≤ passage := by
  calc
    one .description = one .description * 1 := (mul_one _).symm
    _ ≤ passage := by
      unfold passage
      gcongr
      exact one_le_kstar

theorem passage_mul_le : passage * one .description ≤ passage := by
  unfold passage
  rw [mul_assoc]
  gcongr
  exact kstar_mul_le_kstar

theorem passage_le_paragraphs : passage ≤ paragraphs := by
  calc
    passage = 1 * passage := (one_mul _).symm
    _ ≤ paragraphs := by
      unfold paragraphs
      gcongr
      exact one_le_kstar

theorem paragraphs_mul_le : paragraphs * one .description ≤ paragraphs := by
  unfold paragraphs
  rw [mul_assoc]
  gcongr
  exact passage_mul_le

theorem paragraphs_mul_separator_mul_le :
    paragraphs * one .separator * one .description ≤ paragraphs := by
  calc
    paragraphs * one .separator * one .description =
        (passage * one .separator)∗ * (passage * one .separator) *
          one .description := by
      simp only [paragraphs, mul_assoc]
    _ ≤ (passage * one .separator)∗ * passage := by
      gcongr
      · exact kstar_mul_le_kstar
      · exact one_le_passage

/-- A separator may be counted with the paragraph in front of it or behind it. -/
theorem paragraphs_le :
    paragraphs ≤ passage * (one .separator * passage)∗ := by
  apply kstar_mul_le
  · calc
      passage = passage * 1 := (mul_one _).symm
      _ ≤ passage * (one .separator * passage)∗ := by
        gcongr
        exact one_le_kstar
  · calc
      passage * one .separator * (passage * (one .separator * passage)∗) =
          passage *
            (one .separator * passage * (one .separator * passage)∗) := by
        simp only [mul_assoc]
      _ ≤ passage * (one .separator * passage)∗ := by
        gcongr
        exact mul_kstar_le_kstar

/-- A header with paragraphs is an entry without options. -/
theorem header_mul_paragraphs_le : one .header * paragraphs ≤ entry := by
  calc
    one .header * paragraphs ≤
        one .header * (passage * (one .separator * passage)∗) := by
      gcongr
      exact paragraphs_le
    _ = one .header * passage * (one .separator * passage)∗ * 1 := by
      simp only [mul_assoc, mul_one]
    _ ≤ entry := by
      unfold entry
      gcongr
      exact one_le_kstar

theorem entry_mul_option_le :
    entry * (one .optionHeader * passage) ≤ entry := by
  unfold entry
  rw [mul_assoc]
  gcongr
  exact kstar_mul_le_kstar

theorem block_mul_entry_le :
    block * (entry * one .separator) ≤ block :=
  kstar_mul_le_kstar

end Pattern

/--
How far a block was read. An option that is open stays open across a separator,
and behind that only a header may follow.
-/
inductive Stage where
  | start
  | headed
  | described
  | separated
  | optionHeaded
  | optionDescribed
  | optionSeparated
  deriving Repr, DecidableEq

namespace Stage

open Pattern

/-- The phase of a reader at a stage. -/
def phase : Stage → Phase
  | .start => .start
  | .headed => .awaitingDescription
  | .described | .optionDescribed => .awaitingSeparator
  | .separated | .optionSeparated => .awaitingHeader
  | .optionHeaded => .awaitingOptionDescription

/-- Whether an option is open at a stage. -/
def inOption : Stage → Bool
  | .start | .headed | .described | .separated => false
  | .optionHeaded | .optionDescribed | .optionSeparated => true

/-- Where a line of some kind leads, if it may follow. -/
def next? : Stage → Kind → Option Stage
  | .start, .header => some .headed
  | .headed, .description => some .described
  | .described, .description => some .described
  | .described, .separator => some .separated
  | .described, .optionHeader => some .optionHeaded
  | .separated, .header => some .headed
  | .separated, .description => some .described
  | .optionHeaded, .description => some .optionDescribed
  | .optionDescribed, .description => some .optionDescribed
  | .optionDescribed, .separator => some .optionSeparated
  | .optionDescribed, .optionHeader => some .optionHeaded
  | .optionSeparated, .header => some .headed
  | _, _ => none

/-- Where lines of some kinds lead, if each of them may follow. -/
def reach?
    (stage : Stage)
    (kinds : List Kind) :
    Option Stage :=
  kinds.foldlM next? stage

theorem reach?_append
    (stage : Stage)
    (first second : List Kind) :
    stage.reach? (first ++ second) =
      (stage.reach? first).bind fun next => next.reach? second :=
  List.foldlM_append

theorem reach?_concat
    (stage : Stage)
    (kinds : List Kind)
    (kind : Kind) :
    stage.reach? (kinds ++ [kind]) =
      (stage.reach? kinds).bind fun next => next.next? kind := by
  rw [reach?_append]
  congr 1
  funext next
  change (next.next? kind).bind some = next.next? kind
  exact Option.bind_fun_some _

/-! Kinds that are read to a stage begin a block. -/

/-- The kinds that lead to a stage. -/
def written : Stage → Language Kind
  | .start => 1
  | .headed => block * one .header
  | .described => block * (one .header * paragraphs)
  | .separated => block * (one .header * paragraphs * one .separator)
  | .optionHeaded => block * (entry * one .optionHeader)
  | .optionDescribed => block * (entry * (one .optionHeader * passage))
  | .optionSeparated => block

theorem written_separated_le : written .separated ≤ block := by
  simp only [written]
  grw [header_mul_paragraphs_le, block_mul_entry_le]

/-- Kinds that lead to a stage, and one more that may follow, lead to the next stage. -/
theorem written_mul_le
    {stage next : Stage}
    {kind : Kind}
    (moves : stage.next? kind = some next) :
    stage.written * one kind ≤ next.written := by
  cases stage with
  | start =>
      cases kind <;> cases moves
      simp only [written]
      gcongr
      exact one_le_kstar
  | headed =>
      cases kind <;> cases moves
      simp only [written]
      grw [mul_assoc, one_le_passage, passage_le_paragraphs]
  | described =>
      cases kind <;> cases moves <;> simp only [written]
      · grw [mul_assoc, header_mul_paragraphs_le]
      · rw [mul_assoc]
      · grw [mul_assoc, mul_assoc, paragraphs_mul_le]
  | separated =>
      -- Behind a header the separator ended an entry, behind a description a paragraph.
      cases kind <;> cases moves
      · change written .separated * one .header ≤ block * one .header
        grw [written_separated_le]
      · unfold written
        grw [mul_assoc, mul_assoc (one .header), mul_assoc (one .header),
          paragraphs_mul_separator_mul_le]
  | optionHeaded =>
      cases kind <;> cases moves
      simp only [written]
      grw [mul_assoc, mul_assoc entry, one_le_passage]
  | optionDescribed =>
      cases kind <;> cases moves <;> simp only [written]
      · grw [entry_mul_option_le, mul_assoc]
      · grw [entry_mul_option_le, mul_assoc, block_mul_entry_le]
      · grw [mul_assoc, mul_assoc entry, mul_assoc (one .optionHeader), passage_mul_le]
  | optionSeparated =>
      cases kind <;> cases moves
      rfl

theorem mem_written_of_reach?
    {kinds : List Kind}
    {stage : Stage}
    (arrives : start.reach? kinds = some stage) :
    kinds ∈ stage.written := by
  -- From the back: what is written up to a stage grows by the last kind.
  induction kinds using List.reverseRecOn generalizing stage with
  | nil =>
      cases arrives
      exact Language.nil_mem_one
  | append_singleton kinds kind inductionHypothesis =>
      rw [reach?_concat, Option.bind_eq_some_iff] at arrives
      obtain ⟨before, reached, moves⟩ := arrives
      apply written_mul_le moves
      exact Language.append_mem_mul (inductionHypothesis reached) rfl

/-- Every stage can be completed to a block. -/
theorem exists_completion (stage : Stage) :
    ∃ rest target, stage.reach? rest = some target ∧ target.written ≤ block := by
  cases stage with
  | start => exact ⟨[], .start, rfl, one_le_kstar⟩
  | headed =>
      exact ⟨[.description, .separator], .separated, rfl, written_separated_le⟩
  | described => exact ⟨[.separator], .separated, rfl, written_separated_le⟩
  | separated => exact ⟨[], .separated, rfl, written_separated_le⟩
  | optionHeaded => exact ⟨[.description, .separator], .optionSeparated, rfl, le_rfl⟩
  | optionDescribed => exact ⟨[.separator], .optionSeparated, rfl, le_rfl⟩
  | optionSeparated => exact ⟨[], .optionSeparated, rfl, le_rfl⟩

/-! A block, and with it what begins it, is read. -/

/-- Whatever is written in a language leads from some stages to some stages. -/
def Leads
    (sources : Set Stage)
    (language : Language Kind)
    (targets : Set Stage) : Prop :=
  ∀ stage ∈ sources,
    ∀ kinds ∈ language, ∃ next ∈ targets, stage.reach? kinds = some next

variable {sources middle targets : Set Stage} {first second : Language Kind}

theorem leads_one
    {kind : Kind}
    (moves : ∀ stage ∈ sources, ∃ next ∈ targets, stage.next? kind = some next) :
    Leads sources (one kind) targets := by
  intro stage isSource kinds isOne
  obtain rfl : kinds = [kind] := isOne
  obtain ⟨next, isTarget, move⟩ := moves stage isSource
  exact ⟨next, isTarget, (reach?_concat stage [] kind).trans move⟩

theorem Leads.weaken
    (leads : Leads sources first middle)
    (included : middle ⊆ targets) :
    Leads sources first targets := by
  intro stage isSource kinds isFirst
  obtain ⟨next, isMiddle, arrives⟩ := leads stage isSource kinds isFirst
  exact ⟨next, included isMiddle, arrives⟩

theorem Leads.mul
    (leads : Leads sources first middle)
    (leadsOn : Leads middle second targets) :
    Leads sources (first * second) targets := by
  rintro stage isSource _ ⟨before, isFirst, after, isSecond, rfl⟩
  obtain ⟨next, isMiddle, arrives⟩ := leads stage isSource before isFirst
  obtain ⟨last, isTarget, arrivesOn⟩ := leadsOn next isMiddle after isSecond
  refine ⟨last, isTarget, ?_⟩
  change stage.reach? (before ++ after) = _
  rw [reach?_append, arrives]
  exact arrivesOn

theorem Leads.kstar
    (leads : Leads sources first sources) :
    Leads sources first∗ sources := by
  rintro stage isSource _ ⟨parts, rfl, allParts⟩
  induction parts generalizing stage with
  | nil => exact ⟨stage, isSource, rfl⟩
  | cons part rest inductionHypothesis =>
      obtain ⟨isPart, inRest⟩ := List.forall_mem_cons.mp allParts
      obtain ⟨next, isNext, arrives⟩ := leads stage isSource part isPart
      obtain ⟨last, isLast, arrivesOn⟩ := inductionHypothesis next isNext inRest
      refine ⟨last, isLast, ?_⟩
      rw [List.flatten_cons, reach?_append, arrives]
      exact arrivesOn

/-- Description lines lead on from where a first one may stand. -/
theorem leads_passage
    {stage target : Stage}
    (first : stage.next? .description = some target)
    (more : target.next? .description = some target) :
    Leads {stage} passage {target} := by
  have opens : Leads {stage} (one .description) {target} :=
    leads_one (by simpa using first)
  have continues : Leads {target} (one .description) {target} :=
    leads_one (by simpa using more)
  exact opens.mul continues.kstar

/-- The stages at which a header may follow. -/
def openings : Set Stage :=
  {.start, .separated, .optionSeparated}

/-- The stages at which an entry may end. -/
def endings : Set Stage :=
  {.described, .optionDescribed}

theorem leads_paragraphs :
    Leads {.described} (one .separator * passage)∗ {.described} := by
  have separates : Leads {.described} (one .separator) {.separated} :=
    leads_one (by simp [next?])
  exact (separates.mul (leads_passage rfl rfl)).kstar

theorem leads_options :
    Leads endings (one .optionHeader * passage)∗ endings := by
  have opens : Leads endings (one .optionHeader) {.optionHeaded} :=
    leads_one (by simp [endings, next?])
  have described : Leads {.optionHeaded} passage {.optionDescribed} :=
    leads_passage rfl rfl
  exact (opens.mul (described.weaken (by simp [endings]))).kstar

theorem leads_entry : Leads openings entry endings := by
  have heads : Leads openings (one .header) {.headed} :=
    leads_one (by simp [openings, next?])
  have described : Leads {.headed} passage {.described} := leads_passage rfl rfl
  have ends : Leads {.described} (one .separator * passage)∗ endings :=
    leads_paragraphs.weaken (by simp [endings])
  exact ((heads.mul described).mul ends).mul leads_options

theorem leads_block : Leads openings block openings := by
  have separates : Leads endings (one .separator) openings :=
    leads_one (by simp [endings, openings, next?])
  exact (leads_entry.mul separates).kstar

/-- Kinds are read to the end exactly when they begin a block. -/
theorem begins_iff
    {kinds : List Kind} :
    Begins kinds ↔ ∃ stage, start.reach? kinds = some stage := by
  constructor
  · rintro ⟨rest, isBlock⟩
    obtain ⟨last, _, arrives⟩ := leads_block .start (.inl rfl) _ isBlock
    rw [reach?_append, Option.bind_eq_some_iff] at arrives
    obtain ⟨stage, reached, _⟩ := arrives
    exact ⟨stage, reached⟩
  · rintro ⟨stage, reached⟩
    obtain ⟨rest, target, completes, isBlock⟩ := exists_completion stage
    refine ⟨rest, isBlock (mem_written_of_reach? ?_)⟩
    rw [reach?_append, reached]
    exact completes

end Stage

end DocBlock

end DocAudit
