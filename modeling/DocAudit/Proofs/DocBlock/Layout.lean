import DocAudit.Proofs.DocBlock.Acceptance
import DocAudit.Proofs.DocBlock.Written

namespace DocAudit.DocBlock

/-!
# The documented layout

A documented block has one entry for each parameter: a header, a description in
paragraphs, and options with descriptions of their own. Single blank lines stand
between entries and between paragraphs, and nowhere else. What the lines of a
block announce, `Entries`, is kept apart from how each line is written, `Written`.
The reader accepts every such block, and finds the names that it documents.
-/

/-- One or more description lines in a row. -/
inductive Lines : List CommentLine.Content → Prop where
  | last : Lines [.description]
  | next (rest : Lines contents) : Lines (.description :: contents)

/-- One or more description lines, with single blank lines between some of them. -/
inductive Paragraphs : List CommentLine.Content → Prop where
  | last : Paragraphs [.description]
  | next (rest : Paragraphs contents) : Paragraphs (.description :: contents)
  | spaced (rest : Paragraphs contents) :
      Paragraphs (.description :: .separator :: contents)

/-- Any number of options of a hash, each with its description. -/
inductive Options (hash : String) : List CommentLine.Content → Prop where
  | empty : Options hash []
  | next
      {lines contents : List CommentLine.Content}
      (valueType name : String)
      (described : Lines lines)
      (rest : Options hash contents) :
      Options hash (.optionHeader hash valueType name :: (lines ++ contents))

/-- A header with its description and its options. -/
inductive Entry (name : String) : List CommentLine.Content → Prop where
  | mk
      {paragraphs options : List CommentLine.Content}
      (described : Paragraphs paragraphs)
      (optional : Options name options) :
      Entry name (.header name :: (paragraphs ++ options))

/-- One entry for each name, with one blank line between an entry and the next. -/
inductive Entries : List String → List CommentLine.Content → Prop where
  | empty : Entries [] []
  | last
      {name : String}
      {contents : List CommentLine.Content}
      (entry : Entry name contents) :
      Entries [name] contents
  | next
      {name second : String}
      {names : List String}
      {contents others : List CommentLine.Content}
      (entry : Entry name contents)
      (rest : Entries (second :: names) others) :
      Entries (name :: second :: names) (contents ++ .separator :: others)

/-- Comments that document names in the layout. -/
def Layout
    (indent : Nat)
    (names : List String)
    (comments : List Token) : Prop :=
  ∃ contents,
    Entries names contents ∧
      List.Forall₂
        (fun comment content => Written indent comment.text content)
        comments
        contents

namespace Standing

theorem next?_description
    {phase : Phase}
    {name? : Option String}
    {inOption : Bool}
    (continues :
      table.get? (phase, if inOption then .gotOptionDescription else .gotDescription) =
        some .awaitingSeparator) :
    next? ⟨phase, name?, inOption⟩ .description =
      some ⟨.awaitingSeparator, name?, inOption⟩ := by
  unfold next? eventOf
  rw [continues]
  rfl

theorem reach?_lines
    {phase : Phase}
    {name? : Option String}
    {contents : List CommentLine.Content}
    (lines : Lines contents)
    (continues :
      table.get? (phase, .gotOptionDescription) = some .awaitingSeparator) :
    reach? ⟨phase, name?, true⟩ contents =
      some ⟨.awaitingSeparator, name?, true⟩ := by
  induction lines generalizing phase with
  | last =>
      rw [reach?_cons, next?_description continues]
      rfl
  | next _ inductionHypothesis =>
      rw [reach?_cons, next?_description continues]
      exact inductionHypothesis rfl

theorem reach?_paragraphs
    {phase : Phase}
    {name? : Option String}
    {contents : List CommentLine.Content}
    (paragraphs : Paragraphs contents)
    (continues : table.get? (phase, .gotDescription) = some .awaitingSeparator) :
    reach? ⟨phase, name?, false⟩ contents =
      some ⟨.awaitingSeparator, name?, false⟩ := by
  induction paragraphs generalizing phase with
  | last =>
      rw [reach?_cons, next?_description continues]
      rfl
  | next _ inductionHypothesis =>
      rw [reach?_cons, next?_description continues]
      exact inductionHypothesis rfl
  | spaced _ inductionHypothesis =>
      rw [reach?_cons, next?_description continues]
      -- The blank line leads to the next header, where a description may go on too.
      exact inductionHypothesis rfl

theorem reach?_options
    {hash : String}
    {contents : List CommentLine.Content}
    (options : Options hash contents)
    (inOption : Bool) :
    ∃ last,
      reach? ⟨.awaitingSeparator, some hash, inOption⟩ contents =
        some ⟨.awaitingSeparator, some hash, last⟩ := by
  induction options generalizing inOption with
  | empty => exact ⟨inOption, rfl⟩
  | next valueType name described _ inductionHypothesis =>
      obtain ⟨last, arrives⟩ := inductionHypothesis true
      refine ⟨last, ?_⟩
      have opens :
          next? ⟨.awaitingSeparator, some hash, inOption⟩
              (.optionHeader hash valueType name) =
            some ⟨.awaitingOptionDescription, some hash, true⟩ := by
        simp [next?, eventOf, get?_table, enter]
      rw [reach?_cons, opens, Option.bind_some, reach?_append,
        reach?_lines described rfl, Option.bind_some, arrives]

/-- An entry is read to its end wherever a header may follow. -/
theorem reach?_entry
    {standing : Standing}
    {name : String}
    {contents : List CommentLine.Content}
    (entry : Entry name contents)
    (opens : table.get? (standing.phase, .gotHeader) = some .awaitingDescription) :
    ∃ last,
      standing.reach? contents = some ⟨.awaitingSeparator, some name, last⟩ := by
  obtain ⟨described, optional⟩ := entry
  obtain ⟨last, arrives⟩ := reach?_options optional false
  refine ⟨last, ?_⟩
  have heads :
      standing.next? (.header name) =
        some ⟨.awaitingDescription, some name, false⟩ := by
    unfold next? eventOf
    rw [opens]
    rfl
  rw [reach?_cons, heads, Option.bind_some, reach?_append,
    reach?_paragraphs described rfl, Option.bind_some, arrives]

/-- Entries are read to their end wherever a header may follow. -/
theorem exists_reach?_entries
    {names : List String}
    {contents : List CommentLine.Content}
    (entries : Entries names contents)
    (standing : Standing)
    (opens : table.get? (standing.phase, .gotHeader) = some .awaitingDescription) :
    ∃ target, standing.reach? contents = some target := by
  induction entries generalizing standing with
  | empty => exact ⟨standing, rfl⟩
  | last entry =>
      obtain ⟨last, arrives⟩ := reach?_entry entry opens
      exact ⟨_, arrives⟩
  | @next name second names contents others entry _ inductionHypothesis =>
      obtain ⟨last, arrives⟩ := reach?_entry entry opens
      have separates :
          next? ⟨.awaitingSeparator, some name, last⟩ .separator =
            some ⟨.awaitingHeader, some name, last⟩ := by
        simp [next?, eventOf, get?_table, enter]
      rw [reach?_append, arrives, Option.bind_some, reach?_cons, separates]
      exact inductionHypothesis _ rfl

end Standing

/-! The names of a block are those of its headers. -/

theorem headerNames_lines
    {contents : List CommentLine.Content}
    (lines : Lines contents) :
    contents.filterMap CommentLine.Content.headerName? = [] := by
  induction lines with
  | last => rfl
  | next _ inductionHypothesis => exact inductionHypothesis

theorem headerNames_paragraphs
    {contents : List CommentLine.Content}
    (paragraphs : Paragraphs contents) :
    contents.filterMap CommentLine.Content.headerName? = [] := by
  induction paragraphs with
  | last => rfl
  | next _ inductionHypothesis => exact inductionHypothesis
  | spaced _ inductionHypothesis => exact inductionHypothesis

theorem headerNames_options
    {hash : String}
    {contents : List CommentLine.Content}
    (options : Options hash contents) :
    contents.filterMap CommentLine.Content.headerName? = [] := by
  induction options with
  | empty => rfl
  | next valueType name described _ inductionHypothesis =>
      change List.filterMap _ (_ ++ _) = []
      rw [List.filterMap_append, headerNames_lines described, inductionHypothesis]
      rfl

theorem headerNames_entry
    {name : String}
    {contents : List CommentLine.Content}
    (entry : Entry name contents) :
    contents.filterMap CommentLine.Content.headerName? = [name] := by
  obtain ⟨described, optional⟩ := entry
  change name :: List.filterMap _ (_ ++ _) = [name]
  rw [List.filterMap_append, headerNames_paragraphs described,
    headerNames_options optional]
  rfl

theorem headerNames_entries
    {names : List String}
    {contents : List CommentLine.Content}
    (entries : Entries names contents) :
    contents.filterMap CommentLine.Content.headerName? = names := by
  induction entries with
  | empty => rfl
  | last entry => exact headerNames_entry entry
  | next entry _ inductionHypothesis =>
      rw [List.filterMap_append, headerNames_entry entry]
      exact congrArg (List.cons _) inductionHypothesis

/-- Every block in the layout is read, and documents its names in order. -/
theorem Layout.exists_docs
    {config : Config}
    {names : List String}
    {comments : List Token}
    (layout : Layout config.descriptionIndent names comments) :
    ∃ docs,
      DocBlock.docs config comments = .ok docs ∧
        docs.map ParameterDoc.name = names := by
  obtain ⟨contents, entries, written⟩ := layout
  have reads : List.Forall₂ (Reader.Reads config) comments contents :=
    written.imp fun _ _ => reads_of_written
  obtain ⟨target, arrives⟩ :=
    Standing.exists_reach?_entries entries Standing.start rfl
  rw [← headerNames_entries entries]
  exact exists_docs_of_reads reads arrives

end DocAudit.DocBlock
