namespace DocAudit.Text

/-!
# Decimal digits

The decimal digits of a script are ten consecutive code points in the order of
their values. The table lists the code point of each script's zero, for all
characters of the general category decimal number in version 14 of the Unicode
character database.
-/

/-- Code points of the digits zero of all scripts. -/
def zeroPoints : List Nat :=
  [0x0030, 0x0660, 0x06F0, 0x07C0, 0x0966, 0x09E6, 0x0A66, 0x0AE6, 0x0B66, 0x0BE6,
    0x0C66, 0x0CE6, 0x0D66, 0x0DE6, 0x0E50, 0x0ED0, 0x0F20, 0x1040, 0x1090, 0x17E0,
    0x1810, 0x1946, 0x19D0, 0x1A80, 0x1A90, 0x1B50, 0x1BB0, 0x1C40, 0x1C50, 0xA620,
    0xA8D0, 0xA900, 0xA9D0, 0xA9F0, 0xAA50, 0xABF0, 0xFF10, 0x104A0, 0x10D30,
    0x11066, 0x110F0, 0x11136, 0x111D0, 0x112F0, 0x11450, 0x114D0, 0x11650,
    0x116C0, 0x11730, 0x118E0, 0x11950, 0x11C50, 0x11D50, 0x11DA0, 0x16A60,
    0x16AC0, 0x16B50, 0x1D7CE, 0x1D7D8, 0x1D7E2, 0x1D7EC, 0x1D7F6, 0x1E140,
    0x1E2F0, 0x1E950, 0x1FBF0]

/-- The value of a decimal digit of any script. -/
def decimalDigit? (char : Char) : Option Nat :=
  (zeroPoints.find? fun first =>
      decide (first ≤ char.toNat) && decide (char.toNat < first + 10)).map
    fun first => char.toNat - first

/-- A decimal digit has a value below ten. -/
theorem lt_ten_of_decimalDigit?
    {char : Char}
    {value : Nat}
    (digit : decimalDigit? char = some value) :
    value < 10 := by
  obtain ⟨first, found, rfl⟩ := Option.map_eq_some_iff.mp digit
  have inBlock := List.find?_some found
  simp only [Bool.and_eq_true, decide_eq_true_eq] at inBlock
  omega

end DocAudit.Text
