import DocAudit.Text.CodePoints

namespace DocAudit.Text

/-!
# Blank characters and trimming

Blank characters are the characters of the bidirectional classes `WS`, `B` and
`S` and the space separators. A comment line counts as empty when it holds
nothing else, and its text is read without the blank characters at its two ends.
The zero-width space U+200B and the byte order mark U+FEFF are not blank.
-/

/-- The blank characters. -/
def blankPoints : CodePoints where
  ranges :=
    [(0x0009, 0x000D), (0x001C, 0x0020), (0x0085, 0x0085), (0x00A0, 0x00A0),
      (0x1680, 0x1680), (0x2000, 0x200A), (0x2028, 0x2029), (0x202F, 0x202F),
      (0x205F, 0x205F), (0x3000, 0x3000)]

/-- Whether a character is blank. -/
def isBlank (char : Char) : Bool :=
  blankPoints.contains char

/-- A text without the characters at its two ends that satisfy `drop`. -/
def trimWhere (drop : Char → Bool) (text : List Char) : List Char :=
  ((text.dropWhile drop).reverse.dropWhile drop).reverse

/-- A text without the blank characters at its two ends. -/
def trim (text : List Char) : List Char :=
  trimWhere isBlank text

/-- The space U+0020 is blank. -/
theorem isBlank_space : isBlank ' ' = true := by decide

end DocAudit.Text
