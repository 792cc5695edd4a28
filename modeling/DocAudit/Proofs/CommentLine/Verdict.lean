import DocAudit.Proofs.Header.Markers
import DocAudit.Proofs.Header.Reading

namespace DocAudit.CommentLine

/-!
# Two judgements of one line

The header lines of a block are judged by their shape, and each line of an accepted
block is judged once more by its markers. The second judgement rejects a line of an
accepted block only if it has the shape of an option header and mentions the marker of
a parameter header: in its hash, its type or its name. That a line with the marker of
an option header only could have the shape of a parameter header is ruled out, because
a parameter header mentions its own marker. Every other line is read as what its text
announces, or is skipped, if the description indent can be made. The main statement is
`read_of_accepted`.
-/

/-- A comment that is written like an option header and mentions the parameter marker. -/
structure DoublyMarked (comment : Token) : Prop where
  announces :
    ∃ hash valueType name,
      Header.Announces comment.trimmed (.option hash valueType name)
  mentions : Header.paramMarker <:+: comment.trimmed.toList

/-- The ways to read a comment without rejecting it. -/
inductive Reads
    (config : Config)
    (started : Bool)
    (comment : Token) :
    Except Fault (Option CommentLine) → Prop where
  | header
      {name : String} :
      Header.Announces comment.trimmed (.param name) →
      Reads config started comment (.ok (some ⟨comment, .header name⟩))
  | optionHeader
      {hash valueType name : String} :
      started = true →
      comment.mentionsParam = false →
      Header.Announces comment.trimmed (.option hash valueType name) →
      Reads config started comment
        (.ok (some ⟨comment, .optionHeader hash valueType name⟩))
  | headerless
      {content : Content} :
      started = true →
      comment.isHeaderLine = false →
      content.header? = none →
      Reads config started comment (.ok (some ⟨comment, content⟩))
  | skipped :
      comment.mentionsParam = false →
      (started = true → comment.isHeaderLine = false) →
      Reads config started comment (.ok none)
  | unmade
      {fault : Fault} :
      started = true →
      comment.isHeaderLine = false →
      comment.core ≠ [] →
      Fault.ofRun? config.descriptionIndent = some fault →
      Reads config started comment (.error fault)

variable
  {config : Config}
  {started : Bool}
  {comment : Token}

/-- The markers hold no blank character, so trimming a text takes none away. -/
theorem mentionsParam_iff :
    comment.mentionsParam = true ↔
      Header.paramMarker <:+: comment.trimmed.toList := by
  have solid : Header.paramMarker.any Text.isBlank = false := by decide
  rw [Token.mentionsParam, Text.occurs_iff, ← Header.core_eq_toList_trimmed, Token.core,
    Text.infix_trim_iff (by decide) solid]

/-- A line that mentions no parameter marker is not written like a parameter header. -/
theorem ofComment?_ne_param
    (noParam : comment.mentionsParam = false)
    (name : String) :
    Header.ofComment? comment ≠ some (.param name) := by
  intro isParam
  have mentions := Header.mentionsParam_of_param isParam
  rw [noParam] at mentions
  cases mentions

theorem ofComment_ne_param
    (noParam : comment.mentionsParam = false)
    (name : String) :
    Header.ofComment comment ≠ .ok (.param name) := by
  unfold Header.ofComment
  cases shape : Header.ofComment? comment with
  | none => simp
  | some header =>
      rintro ⟨⟩
      exact ofComment?_ne_param noParam name shape

/-- Where the parameter marker is absent, an option line is rejected for its shape only. -/
theorem ofOptionHeader_eq_error_iff_ofComment
    (noParam : comment.mentionsParam = false)
    (fault : Fault) :
    ofOptionHeader comment = .error fault ↔
      ∃ error, Header.ofComment comment = .error error ∧ fault = .unreadable error := by
  unfold ofOptionHeader Header.ofComment
  cases shape : Header.ofComment? comment with
  | none => simp [eq_comm]
  | some header =>
      cases header with
      | param name => exact (ofComment?_ne_param noParam name shape).elim
      | option hash valueType name => simp

/-- A header line of an accepted block has one of the two shapes. -/
theorem exists_shape_of_validate
    {comments : List Token}
    (accepted : Header.validate comments = .ok ())
    (member : comment ∈ comments)
    (isHeaderLine : comment.isHeaderLine = true) :
    ∃ header, Header.ofComment? comment = some header :=
  Option.isSome_iff_exists.mp
    (Header.validate_eq_ok_iff.mp accepted comment member isHeaderLine)

theorem isHeaderLine_eq_false_iff :
    comment.isHeaderLine = false ↔
      comment.mentionsParam = false ∧ comment.mentionsOption = false := by
  simp [Token.isHeaderLine]

theorem reads_ofParamHeader
    {header : Header}
    (single : ¬ DoublyMarked comment)
    (mentions : comment.mentionsParam = true)
    (shape : Header.ofComment? comment = some header) :
    Reads config started comment ((ofParamHeader comment).map some) := by
  have announces := Header.ofComment?_eq_some_iff_announces.mp shape
  unfold ofParamHeader
  cases header with
  | param name =>
      rw [shape]
      exact .header announces
  | option hash valueType name =>
      have doublyMarked : DoublyMarked comment :=
        ⟨⟨hash, valueType, name, announces⟩, mentionsParam_iff.mp mentions⟩
      exact (single doublyMarked).elim

theorem reads_ofOptionHeader
    {header : Header}
    (isStarted : started = true)
    (noParam : comment.mentionsParam = false)
    (shape : Header.ofComment? comment = some header) :
    Reads config started comment ((ofOptionHeader comment).map some) := by
  unfold ofOptionHeader
  cases header with
  | param name => exact (ofComment?_ne_param noParam name shape).elim
  | option hash valueType name =>
      have announces := Header.ofComment?_eq_some_iff_announces.mp shape
      rw [shape]
      exact .optionHeader isStarted noParam announces

theorem reads_ofText
    (isStarted : started = true)
    (noHeaderLine : comment.isHeaderLine = false)
    (solid : comment.core ≠ []) :
    Reads config started comment (ofText config comment) := by
  unfold ofText
  split
  · exact .headerless isStarted noHeaderLine rfl
  · split
    · rename_i fault isFault
      exact .unmade isStarted noHeaderLine solid isFault
    · exact .skipped (isHeaderLine_eq_false_iff.mp noHeaderLine).1 fun _ => noHeaderLine

/-- A line that mentions the parameter marker is rejected if it is an option header. -/
theorem read_of_doublyMarked
    (doublyMarked : DoublyMarked comment)
    (config : Config)
    (started : Bool) :
    CommentLine.read config started comment =
      .error (.unreadable (.malformedHeader comment)) := by
  obtain ⟨hash, valueType, name, announces⟩ := doublyMarked.announces
  have mentions := mentionsParam_iff.mpr doublyMarked.mentions
  have shape := Header.ofComment?_eq_some_iff_announces.mpr announces
  unfold CommentLine.read ofParamHeader
  rw [if_pos mentions, shape]
  rfl

/-- Any other line of an accepted block is read as what it announces, or skipped. -/
theorem reads_of_not_doublyMarked
    (shaped :
      comment.isHeaderLine = true →
        ∃ header, Header.ofComment? comment = some header)
    (single : ¬ DoublyMarked comment) :
    Reads config started comment (CommentLine.read config started comment) := by
  unfold CommentLine.read
  split
  · rename_i mentionsParam
    obtain ⟨header, shape⟩ := shaped (by simp [Token.isHeaderLine, mentionsParam])
    exact reads_ofParamHeader single mentionsParam shape
  · rename_i silent
    have noParam : comment.mentionsParam = false := Bool.eq_false_iff.mpr silent
    split
    · rename_i notStarted
      refine .skipped noParam fun isStarted => ?_
      simp [isStarted] at notStarted
    · rename_i begun
      have isStarted : started = true := by simpa using begun
      split
      · rename_i mentionsOption
        obtain ⟨header, shape⟩ := shaped (by simp [Token.isHeaderLine, mentionsOption])
        exact reads_ofOptionHeader isStarted noParam shape
      · rename_i noOption
        have noHeaderLine :=
          isHeaderLine_eq_false_iff.mpr ⟨noParam, Bool.eq_false_iff.mpr noOption⟩
        split
        · exact .headerless isStarted noHeaderLine rfl
        · rename_i solid
          exact reads_ofText isStarted noHeaderLine solid

/-- A comment that is read is not rejected as malformed. -/
theorem Reads.ne_malformed
    {result : Except Fault (Option CommentLine)}
    (reads : Reads config started comment result)
    (blamed : Token) :
    result ≠ .error (.unreadable (.malformedHeader blamed)) := by
  cases reads with
  | unmade _ _ _ isFault =>
      rintro ⟨⟩
      exact Fault.ofRun?_ne_unreadable isFault
  | _ => nofun

/--
A comment that mentions the option marker only is never written like a parameter
header, so reading it as an option header rejects it for its shape only. A comment of
an accepted block is rejected as malformed exactly when it is written like an option
header and mentions the parameter marker, whether the block has started or not. Any
other one is read as what it announces or skipped, unless the description indent cannot
be made. In front of the first parameter header, what does not mention its marker is
skipped.
-/
theorem read_of_accepted
    (config : Config)
    (comment : Token) :
    (comment.mentionsOption = true →
        comment.mentionsParam = false →
          (∀ name, Header.ofComment comment ≠ .ok (.param name)) ∧
            ∀ fault,
              ofOptionHeader comment = .error fault ↔
                ∃ error,
                  Header.ofComment comment = .error error ∧
                    fault = .unreadable error) ∧
      (∀ comments,
        Header.validate comments = .ok () →
        comment ∈ comments →
        ∀ started,
          ((∃ blamed,
              CommentLine.read config started comment =
                .error (.unreadable (.malformedHeader blamed))) ↔
            DoublyMarked comment) ∧
          (¬ DoublyMarked comment →
            Reads config started comment
              (CommentLine.read config started comment))) ∧
        (comment.mentionsParam = false →
          CommentLine.read config false comment = .ok none) := by
  refine ⟨?_, ?_, ?_⟩
  · intro _ noParam
    exact
      ⟨ofComment_ne_param noParam, ofOptionHeader_eq_error_iff_ofComment noParam⟩
  · intro comments accepted member started
    have shaped := exists_shape_of_validate accepted member
    refine ⟨⟨?_, ?_⟩, reads_of_not_doublyMarked shaped⟩
    · rintro ⟨blamed, rejected⟩
      by_contra single
      exact (reads_of_not_doublyMarked shaped single).ne_malformed blamed rejected
    · intro doublyMarked
      exact ⟨comment, read_of_doublyMarked doublyMarked config started⟩
  · intro noParam
    simp [CommentLine.read, noParam]

/-- An option whose type mentions the parameter marker. -/
def markedOption : Token :=
  ⟨.comment, " @option h [@param] :x", .first⟩

theorem doublyMarked_markedOption : DoublyMarked markedOption where
  announces := by
    have shape : Header.ofComment? markedOption = some (.option "h" "@param" "x") := by
      decide +kernel
    exact ⟨_, _, _, Header.ofComment?_eq_some_iff_announces.mp shape⟩
  mentions := mentionsParam_iff.mp (by decide +kernel)

/-- The shape of the option is accepted, and reading it is not, even in front of all. -/
theorem read_of_accepted_markedOption :
    Header.validate [markedOption] = .ok () ∧
      markedOption ∈ [markedOption] ∧
        ∃ blamed,
          CommentLine.read Config.standard false markedOption =
            .error (.unreadable (.malformedHeader blamed)) := by
  have accepted : Header.validate [markedOption] = .ok () := by
    decide +kernel
  have member : markedOption ∈ [markedOption] := List.mem_singleton_self _
  obtain ⟨_, judged, _⟩ := read_of_accepted Config.standard markedOption
  obtain ⟨rejected_iff, _⟩ := judged [markedOption] accepted member false
  exact ⟨accepted, member, rejected_iff.mpr doublyMarked_markedOption⟩

/-- Settings with an indent that is longer than any text. -/
def boundlessConfig : Config :=
  { Config.standard with
    descriptionIndent := Limit.greatestLength + 1
    indentPositive := Nat.succ_pos _ }

/-- A comment that mentions no marker. -/
def plainComment : Token :=
  ⟨.comment, " plain text", .first⟩

/-- A plain line of an accepted block is not read if its indent cannot be made. -/
theorem unread_plainComment :
    Header.validate [plainComment] = .ok () ∧
      ¬ DoublyMarked plainComment ∧
        CommentLine.read boundlessConfig true plainComment = .error .indentTooLong := by
  refine ⟨by decide +kernel, ?_, by decide +kernel⟩
  intro doublyMarked
  have mentions := mentionsParam_iff.mpr doublyMarked.mentions
  revert mentions
  decide +kernel

end DocAudit.CommentLine
