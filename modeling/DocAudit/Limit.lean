namespace DocAudit.Limit

/-!
# Limits

Places and lengths are numbers of 63 bits, memory holds texts up to some length,
and an integer literal has a greatest number of digits. Numbers beyond a limit
are refused where they are used, and not before.
-/

/-- The greatest number of 63 bits: the greatest place in a list or length of a text. -/
def greatestLength : Nat := 0x7FFFFFFFFFFFFFFF

/-- The length of the longest text for which memory is taken to suffice. -/
def longestText : Nat := 0x10000000

/-- The greatest number of digits of an integer literal. -/
def literalDigits : Nat := 4300

/-- Every text that memory holds has a length. -/
theorem longestText_le_greatestLength : longestText ≤ greatestLength := by decide

end DocAudit.Limit
