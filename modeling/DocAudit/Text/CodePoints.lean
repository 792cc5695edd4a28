namespace DocAudit.Text

/-!
# Sets of code points

Character classes of the Unicode standard are tables of code point ranges. This
module holds the one shape that all tables of the library share, and says what
membership means.
-/

/-- A set of characters, given by ranges of code points with both ends included. -/
structure CodePoints where
  ranges : List (Nat × Nat)
  deriving Repr, DecidableEq

namespace CodePoints

/-- Whether the code point of a character lies in one of the ranges. -/
def contains (points : CodePoints) (char : Char) : Bool :=
  points.ranges.any fun range =>
    decide (range.1 ≤ char.toNat) && decide (char.toNat ≤ range.2)

/-- Membership is membership in some range of the table. -/
theorem contains_iff {points : CodePoints} {char : Char} :
    points.contains char = true ↔
      ∃ range ∈ points.ranges,
        range.1 ≤ char.toNat ∧ char.toNat ≤ range.2 := by
  simp [contains, List.any_eq_true]

end CodePoints

end DocAudit.Text
