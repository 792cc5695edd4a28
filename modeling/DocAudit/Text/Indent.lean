namespace DocAudit.Text

/-!
# Indented words

A word is indented by a number of spaces when at least that many spaces stand
directly in front of it, wherever in the line it is.
-/

/--
Whether a word is indented by `width` spaces in the rest of a line, when `run`
spaces stand directly in front of that rest.
-/
def indentsFrom (width run : Nat) : List Char → Bool
  | [] => false
  | char :: rest =>
      if char = ' ' then
        indentsFrom width (run + 1) rest
      else
        decide (width ≤ run) || indentsFrom width 0 rest

/-- Whether some word of a line is indented by `width` spaces. -/
def indentsWord (width : Nat) (line : List Char) : Bool :=
  indentsFrom width 0 line

/-- Spaces alone indent nothing. -/
theorem indentsFrom_replicate_space (width run count : Nat) :
    indentsFrom width run (List.replicate count ' ') = false := by
  induction count generalizing run with
  | zero => rfl
  | succ count inductionHypothesis =>
      simp [List.replicate_succ, indentsFrom, inductionHypothesis]

/-- A word is indented by the spaces in front of it, or a later word is. -/
theorem indentsFrom_replicate_append
    {width run count : Nat}
    {char : Char}
    {rest : List Char}
    (isWord : char ≠ ' ') :
    indentsFrom width run (List.replicate count ' ' ++ char :: rest) =
      (decide (width ≤ run + count) || indentsFrom width 0 rest) := by
  induction count generalizing run with
  | zero => simp [indentsFrom, isWord]
  | succ count inductionHypothesis =>
      simp only [List.replicate_succ, List.cons_append, indentsFrom, if_true,
        inductionHypothesis]
      congr 2
      simp only [eq_iff_iff]
      omega

end DocAudit.Text
