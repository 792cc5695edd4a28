import DocAudit.Text.Printable

namespace DocAudit.Text

/-!
# Quoted texts

Messages show a text that may be anything in quotes, so that its ends and its
invisible characters can be seen. A text stands in single quotes, and in double
quotes only when it holds a single quote and no double quote. The quote in use
and the backslash are preceded by a backslash, and a character that is not
printable is written as its usual short escape or by its code point.
-/

/-- The digits of a number in base sixteen, lowest first, in a number of columns. -/
def hexColumns : Nat → Nat → List Char
  | 0, _ => []
  | width + 1, value =>
      Nat.digitChar (value % 16) :: hexColumns width (value / 16)

/-- A backslash, a letter, and a code point in `width` digits of base sixteen. -/
def codePointEscape
    (letter : Char)
    (width : Nat)
    (char : Char) :
    List Char :=
  '\\' :: letter :: (hexColumns width char.toNat).reverse

/-- How one character is written between quotes. -/
def quotedChar (quote char : Char) : List Char :=
  if char = quote ∨ char = '\\' then
    ['\\', char]
  else if char = '\n' then
    ['\\', 'n']
  else if char = '\r' then
    ['\\', 'r']
  else if char = '\t' then
    ['\\', 't']
  else if isPrintable char then
    [char]
  else if char.toNat < 0x100 then
    codePointEscape 'x' 2 char
  else if char.toNat < 0x10000 then
    codePointEscape 'u' 4 char
  else
    codePointEscape 'U' 8 char

/-- The single quote U+0027. -/
def singleQuote : Char := '\x27'

/-- The double quote U+0022. -/
def doubleQuote : Char := '\x22'

/-- The quote that a text is written in. -/
def quoteFor (text : List Char) : Char :=
  if text.contains singleQuote && !text.contains doubleQuote then
    doubleQuote
  else
    singleQuote

/-- A text in quotes. -/
def quoted (text : String) : String :=
  let chars := text.toList
  let quote := quoteFor chars
  String.ofList
    (quote :: chars.flatMap (quotedChar quote) ++ [quote])

/-- There are as many digits as columns. -/
theorem length_hexColumns (width value : Nat) :
    (hexColumns width value).length = width := by
  induction width generalizing value with
  | zero => rfl
  | succ width inductionHypothesis =>
      simp [hexColumns, inductionHypothesis]

end DocAudit.Text
