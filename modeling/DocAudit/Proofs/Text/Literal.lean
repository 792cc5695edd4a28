import Mathlib.Data.Nat.Digits.Defs
import DocAudit.Proofs.Text.Trim
import DocAudit.Text.Integer

namespace DocAudit.Text

/-!
# Writing integers

A literal is put together from blank characters, a sign, and digits, of which each but
the first may follow an underscore. Its value is what its digits amount to in base ten.
A text is read as an integer exactly when it is put together like that, and every
natural number can be written with its usual digits behind any number of zeros. The
main results are `integer?_eq_some_iff` and `writes_toDigits`.
-/

/-- A decimal digit of some script. -/
structure Digit where
  char : Char
  value : Nat
  isDigit : decimalDigit? char = some value

/-- A digit behind another one, set apart from it by an underscore or not. -/
structure NextDigit extends Digit where
  apart : Bool

/-- One or more digits. -/
structure Numeral where
  first : Digit
  rest : List NextDigit

/-- The sign in front of a literal. -/
inductive Sign where
  | plus
  | minus
  deriving Repr, DecidableEq

/-- How an integer is written by some rules. -/
structure Literal (rules : LiteralRules) where
  before : List Char
  sign? : Option Sign
  numeral : Numeral
  after : List Char
  surrounds_before : ∀ char ∈ before, rules.surrounds char = true
  surrounds_after : ∀ char ∈ after, rules.surrounds char = true
  allowed : rules.allows (numeral.rest.length + 1) = true

/-- The characters of a digit behind another one. -/
def NextDigit.chars (next : NextDigit) : List Char :=
  if next.apart then ['_', next.char] else [next.char]

namespace Numeral

/-- The characters of a numeral. -/
def chars (numeral : Numeral) : List Char :=
  numeral.first.char :: numeral.rest.flatMap NextDigit.chars

/-- The values of the digits in the order in which they are written. -/
def digits (numeral : Numeral) : List Nat :=
  numeral.first.value :: numeral.rest.map fun next => next.value

/-- What the digits amount to in base ten. -/
def value (numeral : Numeral) : Nat :=
  Nat.ofDigits 10 numeral.digits.reverse

end Numeral

namespace Sign

/-- The character of a sign. -/
def char : Sign → Char
  | .plus => '+'
  | .minus => '-'

/-- The value of a literal with a sign. -/
def apply : Sign → Nat → Int
  | .plus, value => value
  | .minus, value => -value

end Sign

namespace Literal

variable {rules : LiteralRules}

/-- The characters between those that surround a literal. -/
def core (literal : Literal rules) : List Char :=
  literal.sign?.toList.map Sign.char ++ literal.numeral.chars

/-- The characters of a literal. -/
def chars (literal : Literal rules) : List Char :=
  literal.before ++ literal.core ++ literal.after

/-- The text of a literal. -/
def text (literal : Literal rules) : String :=
  String.ofList literal.chars

/-- The integer that a literal writes; without a sign it is not negative. -/
def value (literal : Literal rules) : Int :=
  (literal.sign?.getD .plus).apply literal.numeral.value

end Literal

/-- A text writes an integer by some rules when a literal with that value has that text. -/
def Writes
    (rules : LiteralRules)
    (text : String)
    (value : Int) :
    Prop :=
  ∃ literal : Literal rules, literal.text = text ∧ literal.value = value

section Digits

variable
  {digits : List Nat}
  {text : List Char}
  {value : Nat}

/-- One more digit multiplies what the digits amount to by ten. -/
theorem ofDigits_concat (digits : List Nat) (digit : Nat) :
    Nat.ofDigits 10 (digits ++ [digit]).reverse =
      10 * Nat.ofDigits 10 digits.reverse + digit := by
  rw [List.reverse_append, List.reverse_singleton, List.singleton_append, Nat.ofDigits_cons,
    Nat.add_comm]

theorem decimalDigit?_underscore : decimalDigit? '_' = none := by decide

/-- A digit is none of the characters that are no digits. -/
theorem Digit.char_ne
    (digit : Digit)
    {char : Char}
    (noDigit : decimalDigit? char = none) :
    digit.char ≠ char := by
  rintro rfl
  cases digit.isDigit.symm.trans noDigit

/-- More digits are read one by one. -/
theorem moreDigits?_chars
    (digits : List Nat)
    (rest : List NextDigit) :
    moreDigits? (Nat.ofDigits 10 digits.reverse) (rest.flatMap NextDigit.chars) =
      some (Nat.ofDigits 10 (digits ++ rest.map fun next => next.value).reverse) := by
  induction rest generalizing digits with
  | nil => simp [moreDigits?]
  | cons next rest inductionHypothesis =>
      have read := inductionHypothesis (digits ++ [next.value])
      rw [ofDigits_concat, List.append_assoc, List.singleton_append] at read
      have isDigit := next.isDigit
      cases apart : next.apart with
      | true => simp [NextDigit.chars, apart, moreDigits?, isDigit, read]
      | false =>
          have notUnderscore := next.toDigit.char_ne decimalDigit?_underscore
          simp [NextDigit.chars, apart, moreDigits?, isDigit, read, notUnderscore]

/-- What is read as more digits is digits, each of them set apart or not. -/
theorem exists_chars_of_moreDigits?
    (read : moreDigits? (Nat.ofDigits 10 digits.reverse) text = some value) :
    ∃ rest : List NextDigit,
      rest.flatMap NextDigit.chars = text ∧
        Nat.ofDigits 10 (digits ++ rest.map fun next => next.value).reverse = value := by
  generalize start : Nat.ofDigits 10 digits.reverse = before at read
  fun_induction moreDigits? before text generalizing digits with
  | case1 before =>
      cases read
      exact ⟨[], rfl, by simpa using start⟩
  | case2 before char rest digit isDigit inductionHypothesis =>
      have goesOn : Nat.ofDigits 10 (digits ++ [digit]).reverse = 10 * before + digit := by
        rw [ofDigits_concat, start]
      obtain ⟨more, shape, amounts⟩ := inductionHypothesis goesOn read
      refine ⟨⟨⟨char, digit, isDigit⟩, true⟩ :: more, ?_, ?_⟩
      · simp [NextDigit.chars, shape]
      · simpa using amounts
  | case3 => cases read
  | case4 before char rest _ digit isDigit inductionHypothesis =>
      have goesOn : Nat.ofDigits 10 (digits ++ [digit]).reverse = 10 * before + digit := by
        rw [ofDigits_concat, start]
      obtain ⟨more, shape, amounts⟩ := inductionHypothesis goesOn read
      refine ⟨⟨⟨char, digit, isDigit⟩, false⟩ :: more, ?_, ?_⟩
      · simp [NextDigit.chars, shape]
      · simpa using amounts
  | case5 => cases read

/-- A text is read as a natural number when it is the text of a numeral. -/
theorem natural?_eq_some_iff :
    natural? text = some value ↔
      ∃ numeral : Numeral, numeral.chars = text ∧ numeral.value = value := by
  constructor
  · intro read
    cases text with
    | nil => cases read
    | cons char rest =>
        cases isDigit : decimalDigit? char with
        | none => simp [natural?, isDigit] at read
        | some digit =>
            simp only [natural?, isDigit] at read
            have start : Nat.ofDigits 10 [digit].reverse = digit := by simp
            rw [← start] at read
            obtain ⟨more, shape, amounts⟩ := exists_chars_of_moreDigits? read
            exact ⟨⟨⟨char, digit, isDigit⟩, more⟩, by rw [Numeral.chars, shape], amounts⟩
  · rintro ⟨⟨first, rest⟩, rfl, rfl⟩
    have read := moreDigits?_chars [first.value] rest
    rw [List.reverse_singleton, Nat.ofDigits_singleton] at read
    simp only [natural?, Numeral.chars, first.isDigit]
    exact read

/-- A change of the natural number that is read is a change of the value of a numeral. -/
theorem map_natural?_eq_some_iff
    {change : Nat → Int}
    {changed : Int} :
    (natural? text).map change = some changed ↔
      ∃ numeral : Numeral, numeral.chars = text ∧ change numeral.value = changed := by
  rw [Option.map_eq_some_iff]
  constructor
  · rintro ⟨value, read, rfl⟩
    obtain ⟨numeral, shape, rfl⟩ := natural?_eq_some_iff.mp read
    exact ⟨numeral, shape, rfl⟩
  · rintro ⟨numeral, shape, rfl⟩
    exact ⟨numeral.value, natural?_eq_some_iff.mpr ⟨numeral, shape, rfl⟩, rfl⟩

end Digits

section Signs

variable
  {text : List Char}
  {value : Int}

/-- A text that does not begin with a sign is read as a natural number. -/
theorem signed?_of_unsigned
    (noMinus : text.head? ≠ some '-')
    (noPlus : text.head? ≠ some '+') :
    signed? text = (natural? text).map Int.ofNat := by
  unfold signed?
  split
  · exact (noMinus rfl).elim
  · exact (noPlus rfl).elim
  · rfl

/-- No sign is a digit. -/
theorem Sign.decimalDigit?_char (sign : Sign) : decimalDigit? sign.char = none := by
  cases sign <;> decide

theorem Numeral.head?_chars_ne (numeral : Numeral) (sign : Sign) :
    numeral.chars.head? ≠ some sign.char := by
  intro isSign
  exact numeral.first.char_ne sign.decimalDigit?_char (Option.some.inj isSign)

/-- A text is read as an integer when it is a numeral with a sign in front of it, or none. -/
theorem signed?_eq_some_iff :
    signed? text = some value ↔
      ∃ (sign? : Option Sign) (numeral : Numeral),
        sign?.toList.map Sign.char ++ numeral.chars = text ∧
          (sign?.getD .plus).apply numeral.value = value := by
  constructor
  · intro read
    unfold signed? at read
    split at read
    · obtain ⟨numeral, rfl, rfl⟩ := map_natural?_eq_some_iff.mp read
      exact ⟨some .minus, numeral, rfl, rfl⟩
    · obtain ⟨numeral, rfl, rfl⟩ := map_natural?_eq_some_iff.mp read
      exact ⟨some .plus, numeral, rfl, rfl⟩
    · obtain ⟨numeral, rfl, rfl⟩ := map_natural?_eq_some_iff.mp read
      exact ⟨none, numeral, rfl, rfl⟩
  · rintro ⟨sign?, numeral, rfl, rfl⟩
    cases sign? with
    | none =>
        have unsigned :=
          signed?_of_unsigned (numeral.head?_chars_ne .minus) (numeral.head?_chars_ne .plus)
        exact unsigned.trans (map_natural?_eq_some_iff.mpr ⟨numeral, rfl, rfl⟩)
    | some sign =>
        cases sign with
        | plus => exact map_natural?_eq_some_iff.mpr ⟨numeral, rfl, rfl⟩
        | minus => exact map_natural?_eq_some_iff.mpr ⟨numeral, rfl, rfl⟩

end Signs

section Blanks

variable {char : Char}

/-- No digit lies in a range of blank characters. -/
theorem zeroPoints_apart :
    ∀ first ∈ zeroPoints, ∀ range ∈ blankPoints.ranges,
      range.2 < first ∨ first + 10 ≤ range.1 := by
  decide

/-- No blank character is a digit. -/
theorem decimalDigit?_of_isBlank
    (blank : isBlank char = true) :
    decimalDigit? char = none := by
  obtain ⟨range, listed, inRange⟩ := CodePoints.contains_iff.mp blank
  rw [decimalDigit?, Option.map_eq_none_iff, List.find?_eq_none]
  intro first isZero inBlock
  have apart := zeroPoints_apart first isZero range listed
  simp only [Bool.and_eq_true, decide_eq_true_eq] at inBlock
  omega

/-- The character of a digit is not blank. -/
theorem Digit.isBlank_char (digit : Digit) : isBlank digit.char = false := by
  rw [Bool.eq_false_iff]
  intro blank
  exact digit.char_ne (decimalDigit?_of_isBlank blank) rfl

theorem NextDigit.isBlank_chars
    {next : NextDigit}
    (member : char ∈ next.chars) :
    isBlank char = false := by
  have underscore : isBlank '_' = false := by decide
  have digit := next.toDigit.isBlank_char
  cases apart : next.apart <;>
    simp only [NextDigit.chars, apart, Bool.false_eq_true, if_true, if_false, List.mem_cons,
      List.not_mem_nil, or_false] at member
  · rwa [member]
  · rcases member with rfl | rfl <;> assumption

theorem Sign.isBlank_char (sign : Sign) : isBlank sign.char = false := by
  cases sign <;> decide

/-- The characters between those that surround a literal are not blank. -/
theorem Literal.isBlank_core
    {rules : LiteralRules}
    {literal : Literal rules}
    (member : char ∈ literal.core) :
    isBlank char = false := by
  rcases List.mem_append.mp member with inSign | inNumeral
  · obtain ⟨sign, _, rfl⟩ := List.mem_map.mp inSign
    exact sign.isBlank_char
  · rcases List.mem_cons.mp inNumeral with rfl | inRest
    · exact literal.numeral.first.isBlank_char
    · obtain ⟨next, _, inNext⟩ := List.mem_flatMap.mp inRest
      exact NextDigit.isBlank_chars inNext

end Blanks

section Counts

theorem digitCount_append (first second : List Char) :
    digitCount (first ++ second) = digitCount first + digitCount second :=
  List.countP_append

/-- Nothing is counted where there are no digits. -/
theorem digitCount_eq_zero
    {text : List Char}
    (noDigit : ∀ char ∈ text, decimalDigit? char = none) :
    digitCount text = 0 := by
  refine List.countP_eq_zero.mpr fun char member => ?_
  simp [noDigit char member]

theorem NextDigit.digitCount_chars (next : NextDigit) : digitCount next.chars = 1 := by
  cases apart : next.apart <;>
    simp [digitCount, NextDigit.chars, apart, next.isDigit, decimalDigit?_underscore]

theorem digitCount_flatMap_chars (rest : List NextDigit) :
    digitCount (rest.flatMap NextDigit.chars) = rest.length := by
  induction rest with
  | nil => rfl
  | cons next rest inductionHypothesis =>
      rw [List.flatMap_cons, digitCount_append, next.digitCount_chars, inductionHypothesis,
        List.length_cons, Nat.add_comm]

theorem Numeral.digitCount_chars (numeral : Numeral) :
    digitCount numeral.chars = numeral.rest.length + 1 := by
  have isDigit : (decimalDigit? numeral.first.char).isSome = true := by
    rw [numeral.first.isDigit, Option.isSome_some]
  rw [← digitCount_flatMap_chars numeral.rest]
  exact List.countP_cons_of_pos isDigit

/-- Neither a sign nor blank characters are counted. -/
theorem digitCount_surrounded
    {rules : LiteralRules}
    {before after : List Char}
    (surroundsBefore : ∀ char ∈ before, rules.surrounds char = true)
    (surroundsAfter : ∀ char ∈ after, rules.surrounds char = true)
    (sign? : Option Sign)
    (numeral : Numeral) :
    digitCount (before ++ (sign?.toList.map Sign.char ++ numeral.chars) ++ after) =
      numeral.rest.length + 1 := by
  have noDigit {char : Char} (surrounds : rules.surrounds char = true) :
      decimalDigit? char = none :=
    decimalDigit?_of_isBlank (rules.isBlank_of_surrounds char surrounds)
  have inFront : digitCount before = 0 :=
    digitCount_eq_zero fun char member => noDigit (surroundsBefore char member)
  have behind : digitCount after = 0 :=
    digitCount_eq_zero fun char member => noDigit (surroundsAfter char member)
  have inSign : digitCount (sign?.toList.map Sign.char) = 0 := by
    refine digitCount_eq_zero fun char member => ?_
    obtain ⟨sign, _, rfl⟩ := List.mem_map.mp member
    exact sign.decimalDigit?_char
  rw [digitCount_append, digitCount_append, digitCount_append, inFront, behind, inSign,
    numeral.digitCount_chars, Nat.zero_add, Nat.zero_add, Nat.add_zero]

end Counts

/-- Trimming a literal leaves its sign and its digits. -/
theorem Literal.trimWhere_chars
    {rules : LiteralRules}
    (literal : Literal rules) :
    trimWhere rules.surrounds literal.chars = literal.core := by
  refine
    trimWhere_surrounded ?_ ?_ literal.surrounds_before literal.surrounds_after
  · simp [core, Numeral.chars]
  · intro char member
    rw [Bool.eq_false_iff]
    intro surrounds
    have blank := rules.isBlank_of_surrounds char surrounds
    rw [isBlank_core member] at blank
    cases blank

/-- A text is read as the integer that it writes. -/
theorem integer?_eq_some_iff
    {rules : LiteralRules}
    {text : String}
    {value : Int} :
    integer? rules text.toList = some value ↔ Writes rules text value := by
  constructor
  · intro read
    by_cases allowed : rules.allows (digitCount text.toList) = true
    · rw [integer?, if_pos allowed] at read
      obtain ⟨sign?, numeral, isCore, amounts⟩ := signed?_eq_some_iff.mp read
      obtain ⟨before, after, shape, surroundsBefore, surroundsAfter⟩ :=
        exists_surrounds_trimWhere rules.surrounds text.toList
      rw [← isCore] at shape
      rw [← shape, digitCount_surrounded surroundsBefore surroundsAfter] at allowed
      refine
        ⟨⟨before, sign?, numeral, after, surroundsBefore, surroundsAfter, allowed⟩, ?_,
          amounts⟩
      exact (congrArg String.ofList shape).trans String.ofList_toList
    · rw [integer?, if_neg allowed] at read
      cases read
  · rintro ⟨literal, rfl, rfl⟩
    have counts : digitCount literal.chars = literal.numeral.rest.length + 1 :=
      digitCount_surrounded literal.surrounds_before literal.surrounds_after literal.sign?
        literal.numeral
    rw [Literal.text, String.toList_ofList, integer?, counts, if_pos literal.allowed,
      literal.trimWhere_chars]
    exact signed?_eq_some_iff.mpr ⟨literal.sign?, literal.numeral, rfl, rfl⟩

section UsualDigits

variable {text : List Char}

/-- The usual digits have their usual values. -/
theorem decimalDigit?_of_isDigit
    {char : Char}
    (usual : char.isDigit = true) :
    decimalDigit? char = some (char.toNat - '0'.toNat) := by
  have bounds : 48 ≤ char.toNat ∧ char.toNat < 58 := by
    simp only [Char.isDigit, Bool.and_eq_true, decide_eq_true_eq, UInt32.le_iff_toNat_le] at usual
    exact ⟨usual.1, Nat.lt_succ_of_le usual.2⟩
  simp [decimalDigit?, zeroPoints, bounds]

theorem moreDigits?_of_isDigit
    (usual : ∀ char ∈ text, char.isDigit = true)
    (value : Nat) :
    moreDigits? value text = some (Nat.ofDigitChars 10 text value) := by
  induction text generalizing value with
  | nil => rfl
  | cons char rest inductionHypothesis =>
      obtain ⟨isUsual, usualRest⟩ := List.forall_mem_cons.mp usual
      have notUnderscore : char ≠ '_' := by
        rintro rfl
        exact Bool.noConfusion isUsual
      rw [Nat.ofDigitChars_cons, ← inductionHypothesis usualRest]
      simp [moreDigits?, notUnderscore, decimalDigit?_of_isDigit isUsual]

theorem natural?_of_isDigit
    (nonempty : text ≠ [])
    (usual : ∀ char ∈ text, char.isDigit = true) :
    natural? text = some (Nat.ofDigitChars 10 text 0) := by
  obtain ⟨first, rest, rfl⟩ := List.exists_cons_of_ne_nil nonempty
  obtain ⟨isUsual, usualRest⟩ := List.forall_mem_cons.mp usual
  simp only [natural?, decimalDigit?_of_isDigit isUsual, Nat.ofDigitChars_cons, Nat.mul_zero,
    Nat.zero_add]
  exact moreDigits?_of_isDigit usualRest _

/-- A natural number can be written with its usual digits behind zeros. -/
theorem writes_toDigits
    {rules : LiteralRules}
    {zeros number : Nat}
    (allowed : rules.allows (zeros + (Nat.toDigits 10 number).length) = true) :
    Writes rules
      (String.ofList (List.replicate zeros '0' ++ Nat.toDigits 10 number))
      number := by
  have usual :
      ∀ char ∈ List.replicate zeros '0' ++ Nat.toDigits 10 number, char.isDigit = true := by
    intro char member
    rcases List.mem_append.mp member with inZeros | inDigits
    · rw [List.eq_of_mem_replicate inZeros]
      rfl
    · exact Nat.isDigit_of_mem_toDigits (by decide) (by decide) inDigits
  have read := natural?_of_isDigit (by simp [Nat.toDigits_ne_nil]) usual
  rw [Nat.ofDigitChars_append, Nat.ofDigitChars_replicate_zero, Nat.mul_zero,
    Nat.ofDigitChars_toDigits (by decide) (by decide)] at read
  obtain ⟨numeral, shape, amounts⟩ := natural?_eq_some_iff.mp read
  have counts : numeral.rest.length + 1 = zeros + (Nat.toDigits 10 number).length := by
    rw [← numeral.digitCount_chars, shape, digitCount,
      List.countP_eq_length.mpr fun char member => by
        simp [decimalDigit?_of_isDigit (usual char member)],
      List.length_append, List.length_replicate]
  refine ⟨⟨[], none, numeral, [], nofun, nofun, counts ▸ allowed⟩, ?_, ?_⟩
  · simp [Literal.text, Literal.chars, Literal.core, shape]
  · exact congrArg Int.ofNat amounts

end UsualDigits

end DocAudit.Text
