import DocAudit.ParseError
import DocAudit.Text.Occurrence

namespace DocAudit

/-!
# Headers

A comment line that mentions `@param` or `@option` is a header and has one of two
shapes: `@param name`, or `@option hash [Type] :name`. Names hold no space, and a
type holds no line end. The shapes are tried on the text without the blank
characters at its two ends. In the second shape the first space ends the name of
the hash and the last space starts the name of the option, so a type may hold
anything else, brackets and spaces included.
-/

/-- What a header announces: a parameter, or an option of a hash parameter. -/
inductive Header where
  | param (name : String)
  | option (hash valueType name : String)
  deriving Repr, DecidableEq

namespace Header

/-- The word that marks a parameter header. -/
def paramMarker : List Char := "@param".toList

/-- The word that marks an option header. -/
def optionMarker : List Char := "@option".toList

/-- The text of a header. -/
def written : Header → List Char
  | .param name => paramMarker ++ ' ' :: name.toList
  | .option hash valueType name =>
      optionMarker ++ ' ' :: hash.toList ++ ' ' :: '[' :: valueType.toList ++
        ']' :: ' ' :: ':' :: name.toList

/-- A word is a text that is not empty and holds no space. -/
def IsWord (text : List Char) : Prop :=
  text ≠ [] ∧ ' ' ∉ text

instance (text : List Char) : Decidable (IsWord text) :=
  inferInstanceAs (Decidable (text ≠ [] ∧ ' ' ∉ text))

/-- The headers that can be written: names are words and a type is one line. -/
def WellFormed : Header → Prop
  | .param name => IsWord name.toList
  | .option hash valueType name =>
      IsWord hash.toList ∧
        (valueType.toList ≠ [] ∧ '\n' ∉ valueType.toList) ∧
          IsWord name.toList

/-- Whether a character is not the space U+0020. -/
def isWordChar (char : Char) : Bool :=
  decide (char ≠ ' ')

/-- Read what follows the marker and the space of a parameter header. -/
def param? (text : List Char) : Option Header :=
  if IsWord text then
    some (.param (String.ofList text))
  else
    none

/--
Read what follows the marker and the space of an option header. The rest behind
the hash is taken from its end: the name of the option up to the last space, and
the type in front of that.
-/
def option? (text : List Char) : Option Header :=
  let hash := text.takeWhile isWordChar
  match text.dropWhile isWordChar with
  | ' ' :: '[' :: rest =>
      let ending := rest.reverse
      match
        (ending.takeWhile isWordChar).reverse,
        ending.dropWhile isWordChar
      with
      | ':' :: name, ' ' :: ']' :: valueType =>
          if hash ≠ [] ∧ valueType ≠ [] ∧ '\n' ∉ valueType ∧ name ≠ [] then
            some
              (.option
                (String.ofList hash)
                (String.ofList valueType.reverse)
                (String.ofList name))
          else
            none
      | _, _ => none
  | _ => none

/-- The header that a text without blank ends writes. -/
def ofText? (text : List Char) : Option Header :=
  match (paramMarker ++ [' ']).isPrefixOf? text with
  | some rest => param? rest
  | none =>
      match (optionMarker ++ [' ']).isPrefixOf? text with
      | some rest => option? rest
      | none => none

/-- The header that a comment writes. -/
def ofComment? (comment : Token) : Option Header :=
  ofText? comment.core

/-- The header that a comment writes, or the error that it writes none. -/
def ofComment (comment : Token) : Except ParseError Header :=
  match ofComment? comment with
  | some header => .ok header
  | none => .error (.malformedHeader comment)

end Header

namespace Token

/-- Whether a comment mentions the marker of a parameter header. -/
def mentionsParam (comment : Token) : Bool :=
  Text.occurs Header.paramMarker comment.text.toList

/-- Whether a comment mentions the marker of an option header. -/
def mentionsOption (comment : Token) : Bool :=
  Text.occurs Header.optionMarker comment.text.toList

/-- Whether a comment is a header line, well shaped or not. -/
def isHeaderLine (comment : Token) : Bool :=
  comment.mentionsParam || comment.mentionsOption

end Token

namespace Header

/-- The first header line of a comment block that has neither shape. -/
def firstMalformed? (comments : List Token) : Option Token :=
  comments.find? fun comment =>
    comment.isHeaderLine && (ofComment? comment).isNone

/-- Accept a comment block whose header lines all have one of the two shapes. -/
def validate (comments : List Token) : Except ParseError Unit :=
  match firstMalformed? comments with
  | some comment => .error (.malformedHeader comment)
  | none => .ok ()

end Header

end DocAudit
