namespace DocAudit.Text

/-!
# Occurrences

A part occurs in a text when the text holds it somewhere as one piece.
-/

/-- Whether a part occurs in a text. -/
def occurs (part : List Char) : List Char → Bool
  | [] => part.isEmpty
  | char :: rest => part.isPrefixOf (char :: rest) || occurs part rest

/-- A part that occurs in a text has something in front of it and something behind it. -/
theorem occurs_iff
    {part text : List Char} :
    occurs part text = true ↔ part <:+: text := by
  induction text with
  | nil => simp [occurs]
  | cons char rest inductionHypothesis =>
      rw [occurs, Bool.or_eq_true, inductionHypothesis, List.isPrefixOf_iff_prefix,
        List.infix_cons_iff]

end DocAudit.Text
