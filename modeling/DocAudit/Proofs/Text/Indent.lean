import DocAudit.Text.Indent

namespace DocAudit.Text

/-!
# Where a line is indented

A line begins indented when its first word stands behind enough spaces, and is
indented inside when a later word does. A word of the line is indented exactly when
one of the two holds: the spaces need not stand at the beginning of the line.
-/

/--
A text that begins with at least `width` spaces and goes on, behind all of them, with
another character.
-/
def BeginsIndented (width : Nat) (text : List Char) : Prop :=
  ∃ count first rest,
    first ≠ ' ' ∧ width ≤ count ∧ text = List.replicate count ' ' ++ first :: rest

/-- A text that begins indented behind some character that is no space. -/
def IndentedInside (width : Nat) (text : List Char) : Prop :=
  ∃ char rest, char ≠ ' ' ∧ (char :: rest) <:+ text ∧ BeginsIndented width rest

variable
  {width : Nat}
  {char : Char}
  {rest : List Char}

theorem not_beginsIndented_nil : ¬ BeginsIndented width [] := by
  simp [BeginsIndented]

/-- A space at the beginning is one of the spaces that indent. -/
theorem beginsIndented_space_cons_iff :
    BeginsIndented width (' ' :: rest) ↔ BeginsIndented (width - 1) rest := by
  constructor
  · rintro ⟨count, first, tail, isWord, enough, shape⟩
    cases count with
    | zero => exact (isWord (List.cons.inj shape).1.symm).elim
    | succ count =>
        exact ⟨count, first, tail, isWord, by omega, (List.cons.inj shape).2⟩
  · rintro ⟨count, first, tail, isWord, enough, rfl⟩
    exact ⟨count + 1, first, tail, isWord, by omega, rfl⟩

/-- No space indents a text that begins with another character. -/
theorem beginsIndented_cons_iff
    (isWord : char ≠ ' ') :
    BeginsIndented width (char :: rest) ↔ width = 0 := by
  constructor
  · rintro ⟨count, first, tail, _, enough, shape⟩
    cases count with
    | zero => omega
    | succ count => exact (isWord (List.cons.inj shape).1).elim
  · rintro rfl
    exact ⟨0, char, rest, isWord, Nat.le_refl 0, rfl⟩

theorem not_indentedInside_nil : ¬ IndentedInside width [] := by
  simp [IndentedInside]

theorem indentedInside_space_cons_iff :
    IndentedInside width (' ' :: rest) ↔ IndentedInside width rest := by
  constructor
  · rintro ⟨char, tail, isWord, isSuffix, indented⟩
    rcases List.suffix_cons_iff.mp isSuffix with atFront | behind
    · exact (isWord (List.cons.inj atFront).1).elim
    · exact ⟨char, tail, isWord, behind, indented⟩
  · rintro ⟨char, tail, isWord, isSuffix, indented⟩
    exact ⟨char, tail, isWord, isSuffix.trans (List.suffix_cons ' ' rest), indented⟩

theorem indentedInside_cons_iff
    (isWord : char ≠ ' ') :
    IndentedInside width (char :: rest) ↔
      BeginsIndented width rest ∨ IndentedInside width rest := by
  constructor
  · rintro ⟨other, tail, isOther, isSuffix, indented⟩
    rcases List.suffix_cons_iff.mp isSuffix with atFront | behind
    · cases atFront
      exact .inl indented
    · exact .inr ⟨other, tail, isOther, behind, indented⟩
  · rintro (indented | ⟨other, tail, isOther, isSuffix, indented⟩)
    · exact ⟨char, rest, isWord, List.suffix_rfl, indented⟩
    · exact ⟨other, tail, isOther, isSuffix.trans (List.suffix_cons char rest), indented⟩

/-- The spaces in front of the rest of a line count towards its first word only. -/
theorem indentsFrom_eq_true_iff
    {run : Nat}
    {text : List Char} :
    indentsFrom width run text = true ↔
      BeginsIndented (width - run) text ∨ IndentedInside width text := by
  induction text generalizing run with
  | nil => simp [indentsFrom, not_beginsIndented_nil, not_indentedInside_nil]
  | cons char rest inductionHypothesis =>
      by_cases isSpace : char = ' '
      · subst isSpace
        rw [indentsFrom, if_pos rfl, inductionHypothesis, beginsIndented_space_cons_iff,
          indentedInside_space_cons_iff, Nat.sub_sub]
      · rw [indentsFrom, if_neg isSpace, Bool.or_eq_true, inductionHypothesis,
          beginsIndented_cons_iff isSpace, indentedInside_cons_iff isSpace, Nat.sub_zero,
          decide_eq_true_iff, Nat.sub_eq_zero_iff_le]

/-- A word of a line is indented when the line begins indented, or is indented inside. -/
theorem indentsWord_iff
    {line : List Char} :
    indentsWord width line = true ↔ BeginsIndented width line ∨ IndentedInside width line :=
  indentsFrom_eq_true_iff

end DocAudit.Text
