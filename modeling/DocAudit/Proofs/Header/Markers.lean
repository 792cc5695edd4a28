import DocAudit.CommentLine
import DocAudit.Proofs.Header.RoundTrip
import DocAudit.Proofs.Machine.Scan
import DocAudit.Proofs.Text.Trim

namespace DocAudit

/-!
# Markers and shapes

Header lines are judged twice: all of them by their shape before a block is read,
and each of them by its marker and its shape when it is read. Both judgements
reject a line that has neither shape. Only the second one rejects a line that has
the shape of an option header and mentions the marker of a parameter header
somewhere, such as in its type.
-/

namespace Header

/-- A parameter header mentions its marker. -/
theorem mentionsParam_of_param
    {comment : Token}
    {name : String}
    (isParam : ofComment? comment = some (.param name)) :
    comment.mentionsParam = true := by
  obtain ⟨_, shape⟩ := ofText?_eq_some_iff.mp isParam
  apply Text.occurs_iff.mpr
  have inCore : paramMarker <:+: comment.core := by
    rw [← shape]
    exact (List.prefix_append _ _).isInfix
  exact inCore.trans (Text.trim_infix _)

/-- A block passes when each of its header lines has one of the two shapes. -/
theorem validate_eq_ok_iff
    {comments : List Token} :
    validate comments = .ok () ↔
      ∀ comment ∈ comments,
        comment.isHeaderLine = true → (ofComment? comment).isSome = true := by
  have noneFound :
      validate comments = .ok () ↔ firstMalformed? comments = none := by
    unfold validate
    cases firstMalformed? comments <;> simp
  rw [noneFound, firstMalformed?, List.find?_eq_none]
  simp only [Bool.and_eq_true, not_and, Bool.not_eq_true, Option.isNone_eq_false_iff]

/-- A block that does not pass has a header line of neither shape, which is blamed. -/
theorem exists_of_validate_ne_ok
    {comments : List Token}
    (fails : validate comments ≠ .ok ()) :
    ∃ blamed ∈ comments, validate comments = .error (.malformedHeader blamed) := by
  unfold validate at fails ⊢
  cases found : firstMalformed? comments with
  | none => simp [found] at fails
  | some blamed => exact ⟨blamed, List.mem_of_find?_eq_some found, rfl⟩

end Header

namespace CommentLine

/-- A line that mentions the parameter marker is rejected unless it is such a header. -/
theorem ofParamHeader_eq_error_iff
    {comment : Token}
    {fault : Fault} :
    ofParamHeader comment = .error fault ↔
      fault = .unreadable (.malformedHeader comment) ∧
        ∀ name, Header.ofComment? comment ≠ some (.param name) := by
  unfold ofParamHeader
  split <;> simp_all [eq_comm]

theorem ofOptionHeader_eq_error_iff
    {comment : Token}
    {fault : Fault} :
    ofOptionHeader comment = .error fault ↔
      fault = .unreadable (.malformedHeader comment) ∧
        ∀ hash valueType name,
          Header.ofComment? comment ≠ some (.option hash valueType name) := by
  unfold ofOptionHeader
  split <;> simp_all [eq_comm]

theorem ofText_eq_error
    {config : Config}
    {comment : Token}
    {fault : Fault}
    (failed : ofText config comment = .error fault) :
    Fault.ofRun? config.descriptionIndent = some fault := by
  unfold ofText at failed
  split at failed
  · cases failed
  · split at failed
    · cases failed
      assumption
    · cases failed

/--
A comment that cannot be read is a header line whose shape does not belong to its
marker, or no run of spaces as long as the description indent can be made.
-/
theorem read_eq_error
    {config : Config}
    {started : Bool}
    {comment : Token}
    {fault : Fault}
    (failed : CommentLine.read config started comment = .error fault) :
    (fault = .unreadable (.malformedHeader comment) ∧
        (comment.mentionsParam = true ∧
            (∀ name, Header.ofComment? comment ≠ some (.param name)) ∨
          comment.mentionsOption = true ∧ Header.ofComment? comment = none)) ∨
      Fault.ofRun? config.descriptionIndent = some fault := by
  unfold CommentLine.read at failed
  split at failed
  · rename_i mentionsParam
    obtain ⟨rfl, noParam⟩ := ofParamHeader_eq_error_iff.mp (map_eq_error_iff.mp failed)
    exact .inl ⟨rfl, .inl ⟨mentionsParam, noParam⟩⟩
  · rename_i silent
    split at failed
    · cases failed
    · split at failed
      · rename_i mentionsOption
        obtain ⟨rfl, noOption⟩ :=
          ofOptionHeader_eq_error_iff.mp (map_eq_error_iff.mp failed)
        refine .inl ⟨rfl, .inr ⟨mentionsOption, ?_⟩⟩
        cases shape : Header.ofComment? comment with
        | none => rfl
        | some header =>
            cases header with
            | param name => exact (silent (Header.mentionsParam_of_param shape)).elim
            | option hash valueType name => exact (noOption _ _ _ shape).elim
      · split at failed
        · cases failed
        · exact .inr (ofText_eq_error failed)

end CommentLine

end DocAudit
