import DocAudit.Limit
import DocAudit.Text.Blank
import DocAudit.Text.DecimalDigit

namespace DocAudit.Text

/-!
# Integer literals

An integer literal is one or more decimal digits, of any script and with a
single underscore allowed between two of them, after an optional sign. Leading
zeros do not change the value, but they count as digits. Which blank characters
may surround a literal, and how many digits it may have, are rules that can be
chosen. By the standard rules these are all blank characters except the
separators U+001C to U+001F, and no more digits than the limit.
-/

/-- Whether a character may surround an integer literal. -/
def isPadding (char : Char) : Bool :=
  isBlank char && !(decide (0x1C ≤ char.toNat) && decide (char.toNat ≤ 0x1F))

/--
Read the digits that follow a digit, where `value` is what the digits before
them amount to.
-/
def moreDigits? (value : Nat) : List Char → Option Nat
  | [] => some value
  | '_' :: char :: rest =>
      match decimalDigit? char with
      | some digit => moreDigits? (10 * value + digit) rest
      | none => none
  | char :: rest =>
      match decimalDigit? char with
      | some digit => moreDigits? (10 * value + digit) rest
      | none => none

/-- Read a literal without sign. -/
def natural? : List Char → Option Nat
  | [] => none
  | char :: rest =>
      match decimalDigit? char with
      | some digit => moreDigits? digit rest
      | none => none

/-- Read a literal with at most one sign in front of it. -/
def signed? : List Char → Option Int
  | '-' :: rest => (natural? rest).map fun value : Nat => -(value : Int)
  | '+' :: rest => (natural? rest).map Int.ofNat
  | text => (natural? text).map Int.ofNat

/-- The number of decimal digits in a text. -/
def digitCount (text : List Char) : Nat :=
  text.countP fun char => (decimalDigit? char).isSome

/--
The rules of integer literals: which blank characters may surround one, and how
many digits it may have, if not any number.
-/
structure LiteralRules where
  surrounds : Char → Bool
  digitLimit? : Option Nat
  isBlank_of_surrounds : ∀ char, surrounds char = true → isBlank char = true

namespace LiteralRules

/-- The rules that hold unless others are chosen. -/
def standard : LiteralRules where
  surrounds := isPadding
  digitLimit? := some Limit.literalDigits
  isBlank_of_surrounds := by
    intro char surrounds
    exact (Bool.and_eq_true_iff.mp surrounds).1

/-- Whether a literal may have a number of digits. -/
def allows
    (rules : LiteralRules)
    (count : Nat) :
    Bool :=
  rules.digitLimit?.all fun limit => decide (count ≤ limit)

end LiteralRules

/-- The integer that a text writes by some rules, if it writes one. -/
def integer?
    (rules : LiteralRules)
    (text : List Char) :
    Option Int :=
  if rules.allows (digitCount text) then
    signed? (trimWhere rules.surrounds text)
  else
    none

end DocAudit.Text
