import Mathlib.Data.List.DropRight
import DocAudit.Text.Blank
import DocAudit.Text.Indent
import DocAudit.Text.Occurrence

namespace DocAudit.Text

/-!
# Trimming

Trimming leaves nothing exactly of a blank text, leaves no blank character at an end,
and leaves a text alone whose two ends are not blank. A part that does not start with a space occurs in an
indented text exactly when it occurs behind the indent.
-/

theorem trim_eq_rdropWhile (text : List Char) :
    trim text = (text.dropWhile isBlank).rdropWhile isBlank :=
  rfl

/-- Trimming leaves nothing exactly when all characters are blank. -/
theorem trim_eq_nil_iff (text : List Char) :
    trim text = [] ↔ text.all isBlank = true := by
  rw [trim_eq_rdropWhile, List.rdropWhile_eq_nil_iff, List.all_eq_true]
  constructor
  · intro restBlank char member
    rw [← List.takeWhile_append_dropWhile (p := isBlank) (l := text)] at member
    rcases List.mem_append.mp member with inFront | behind
    · exact List.all_eq_true.mp (List.all_takeWhile (l := text)) char inFront
    · exact restBlank char behind
  · intro allBlank char member
    exact allBlank char ((List.dropWhile_sublist isBlank).subset member)

/-- What trimming leaves stands somewhere in the text as one piece. -/
theorem trim_infix (text : List Char) : trim text <:+: text := by
  rw [trim_eq_rdropWhile]
  exact
    (List.rdropWhile_prefix _ _).isInfix.trans (List.dropWhile_suffix _).isInfix

/-- A text that neither begins nor ends with a blank character. -/
structure Unpadded (text : List Char) : Prop where
  start : ∀ char ∈ text.head?, isBlank char = false
  stop : ∀ char ∈ text.getLast?, isBlank char = false

theorem unpadded_nil : Unpadded [] where
  start := by simp
  stop := by simp

/-- Trimming leaves no blank character at an end. -/
theorem unpadded_trim (text : List Char) : Unpadded (trim text) := by
  rw [trim_eq_rdropWhile]
  constructor
  · intro char first
    obtain ⟨rest, begins⟩ := List.head?_eq_some_iff.mp first
    have inFront : char :: rest <+: text.dropWhile isBlank := by
      rw [← begins]
      exact List.rdropWhile_prefix _ _
    obtain ⟨more, whole⟩ := inFront
    have atHead := List.head?_dropWhile_not isBlank text
    rwa [← whole] at atHead
  · intro char last
    have nonempty : (text.dropWhile isBlank).rdropWhile isBlank ≠ [] := by
      intro empty
      rw [empty] at last
      cases last
    have isKept := List.rdropWhile_last_not isBlank (text.dropWhile isBlank) nonempty
    rw [List.getLast?_eq_getLast_of_ne_nil nonempty] at last
    cases last
    exact Bool.eq_false_iff.mpr isKept

/-- A part whose first character is kept stands behind all that is dropped in front. -/
theorem infix_dropWhile_iff
    {drop : Char → Bool}
    {first : Char}
    {rest : List Char}
    (kept : drop first = false)
    (text : List Char) :
    first :: rest <:+: text.dropWhile drop ↔ first :: rest <:+: text := by
  induction text with
  | nil => rfl
  | cons char text inductionHypothesis =>
      cases dropped : drop char with
      | false => rw [List.dropWhile_cons_of_neg (by simp [dropped])]
      | true =>
          have notHere : ¬ first :: rest <+: char :: text := by
            intro here
            have sameChar : first = char := (List.cons_prefix_cons.mp here).1
            rw [sameChar, dropped] at kept
            cases kept
          rw [List.dropWhile_cons_of_pos dropped, inductionHypothesis,
            List.infix_cons_iff, or_iff_right notHere]

/-- Trimming takes nothing away from a part that holds no blank character. -/
theorem infix_trim_iff
    {part : List Char}
    (nonempty : part ≠ [])
    (solid : part.any isBlank = false)
    (text : List Char) :
    part <:+: trim text ↔ part <:+: text := by
  obtain ⟨first, rest, shape⟩ := List.exists_cons_of_ne_nil nonempty
  obtain ⟨last, before, reverseShape⟩ :=
    List.exists_cons_of_ne_nil (List.reverse_ne_nil_iff.mpr nonempty)
  have kept : ∀ char ∈ part, isBlank char = false := by
    simpa using solid
  have firstKept : isBlank first = false :=
    kept first (by simp [shape])
  have lastKept : isBlank last = false :=
    kept last (List.mem_reverse.mp (by simp [reverseShape]))
  calc
    part <:+: trim text ↔
        part.reverse <:+: (text.dropWhile isBlank).reverse.dropWhile isBlank := by
      rw [← List.reverse_infix, trim, trimWhere, List.reverse_reverse]
    _ ↔ part.reverse <:+: (text.dropWhile isBlank).reverse := by
      rw [reverseShape, infix_dropWhile_iff lastKept]
    _ ↔ part <:+: text.dropWhile isBlank := List.reverse_infix
    _ ↔ part <:+: text := by
      rw [shape, infix_dropWhile_iff firstKept]

/-- A solid text with dropped characters around it is what trimming leaves of them. -/
theorem trimWhere_surrounded
    {drop : Char → Bool}
    {before core after : List Char}
    (nonempty : core ≠ [])
    (kept : ∀ char ∈ core, drop char = false)
    (dropsBefore : ∀ char ∈ before, drop char = true)
    (dropsAfter : ∀ char ∈ after, drop char = true) :
    trimWhere drop (before ++ core ++ after) = core := by
  obtain ⟨first, rest, shape⟩ := List.exists_cons_of_ne_nil nonempty
  obtain ⟨last, others, reverseShape⟩ :=
    List.exists_cons_of_ne_nil (List.reverse_ne_nil_iff.mpr nonempty)
  have firstKept : drop first = false := kept first (by simp [shape])
  have lastKept : drop last = false :=
    kept last (List.mem_reverse.mp (by simp [reverseShape]))
  have inFront : (before ++ core ++ after).dropWhile drop = core ++ after := by
    rw [List.append_assoc, List.dropWhile_append_of_pos dropsBefore, shape,
      List.cons_append, List.dropWhile_cons_of_neg (by simp [firstKept])]
  have behind : (core ++ after).reverse.dropWhile drop = core.reverse := by
    rw [List.reverse_append,
      List.dropWhile_append_of_pos fun char member =>
        dropsAfter char (List.mem_reverse.mp member),
      reverseShape, List.dropWhile_cons_of_neg (by simp [lastKept])]
  rw [trimWhere, inFront, behind, List.reverse_reverse]

/-- What trimming takes away are characters that are dropped. -/
theorem exists_surrounds_trimWhere
    (drop : Char → Bool)
    (text : List Char) :
    ∃ before after,
      before ++ trimWhere drop text ++ after = text ∧
        (∀ char ∈ before, drop char = true) ∧ ∀ char ∈ after, drop char = true := by
  refine ⟨text.takeWhile drop, (text.dropWhile drop).rtakeWhile drop, ?_, ?_, ?_⟩
  · have behind : trimWhere drop text = (text.dropWhile drop).rdropWhile drop := rfl
    rw [List.append_assoc, behind, List.rdropWhile_append_rtakeWhile,
      List.takeWhile_append_dropWhile]
  · intro char member
    exact List.mem_takeWhile_imp member
  · intro char member
    exact List.mem_takeWhile_imp (List.mem_reverse.mp member)

theorem trim_space_cons (text : List Char) :
    trim (' ' :: text) = trim text := by
  rw [trim_eq_rdropWhile, trim_eq_rdropWhile,
    List.dropWhile_cons_of_pos isBlank_space]

theorem trim_eq_self
    {first : Char}
    {rest : List Char}
    (solidStart : isBlank first = false)
    (solidEnd : (first :: rest).getLast?.any isBlank = false) :
    trim (first :: rest) = first :: rest := by
  have keepsStart : (first :: rest).dropWhile isBlank = first :: rest :=
    List.dropWhile_cons_of_neg (by simp [solidStart])
  rw [trim_eq_rdropWhile, keepsStart, List.rdropWhile_eq_self_iff]
  intro nonempty
  rw [List.getLast?_eq_getLast_of_ne_nil nonempty, Option.any_some] at solidEnd
  simp [solidEnd]

/-- A part that starts with no space occurs behind the indent, if at all. -/
theorem occurs_replicate_append
    {first : Char}
    {rest : List Char}
    (noSpace : first ≠ ' ')
    (count : Nat)
    (body : List Char) :
    occurs (first :: rest) (List.replicate count ' ' ++ body) =
      occurs (first :: rest) body := by
  induction count with
  | zero => rfl
  | succ count inductionHypothesis =>
      rw [List.replicate_succ, List.cons_append, occurs, inductionHypothesis,
        List.isPrefixOf_cons_cons, beq_false_of_ne noSpace, Bool.false_and, Bool.false_or]

/-- A text that is not blank has spaces in front of a first word, or none. -/
theorem exists_eq_replicate_append
    {text : List Char}
    (solid : text.all isBlank = false) :
    ∃ count first rest,
      first ≠ ' ' ∧ text = List.replicate count ' ' ++ first :: rest := by
  induction text with
  | nil => cases solid
  | cons char rest inductionHypothesis =>
      by_cases isSpace : char = ' '
      · rw [isSpace, List.all_cons, isBlank_space, Bool.true_and] at solid
        obtain ⟨count, first, tail, noSpace, rfl⟩ := inductionHypothesis solid
        exact ⟨count + 1, first, tail, noSpace, by rw [isSpace]; rfl⟩
      · exact ⟨0, char, rest, isSpace, rfl⟩

/-- Enough spaces in front of a text that is not blank indent its first word. -/
theorem indentsWord_replicate_append
    {width count : Nat}
    {body : List Char}
    (deep : width ≤ count)
    (solid : body.all isBlank = false) :
    indentsWord width (List.replicate count ' ' ++ body) = true := by
  obtain ⟨more, first, rest, noSpace, rfl⟩ := exists_eq_replicate_append solid
  unfold indentsWord
  rw [← List.append_assoc, List.replicate_append_replicate,
    indentsFrom_replicate_append noSpace]
  have indented : width ≤ count + more := by omega
  simp [indented]

end DocAudit.Text
