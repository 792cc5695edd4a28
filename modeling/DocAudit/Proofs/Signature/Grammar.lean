import DocAudit.Config
import DocAudit.Parameter
import DocAudit.Proofs.Signature.Placement

namespace DocAudit.Signature

/-!
# The grammar of parameter lists

A parameter list is a sequence of items with separators between them. An item is
filler, then at most one type, then a name, then filler, then at most one
default. A separator is a comma at depth zero, and filler is every significant
token that is neither a type word, a name, an equals sign, nor a separator.

Nothing here mentions the reader. A derivation hands out the tokens of the list
to the items, so it also says which token serves which parameter.
-/

/-- What a token can be in the grammar. -/
inductive Letter where
  | typeWord
  | name
  | equals
  | separator
  | filler
  deriving Repr, DecidableEq

/-- What a token is in the grammar; only a comma depends on its depth. -/
def Placed.letter (word : Placed) : Letter :=
  match word.token.kind with
  | .typeWord => .typeWord
  | .parameterName => .name
  | .equals => .equals
  | .comma =>
      if word.depth = 0 then
        .separator
      else
        .filler
  | _ => .filler

/-- Whether a token is a name. -/
def Placed.isName (word : Placed) : Bool :=
  decide (word.letter = .name)

/-- The texts of tokens, one after the other. -/
def textOf (words : List Placed) : String :=
  Token.joined (words.map Placed.token)

/-- A token and those that belong to it: a type word, or an equals sign. -/
structure Part where
  opener : Placed
  rest : List Placed
  deriving Repr, DecidableEq

/-- The tokens of a part. -/
def Part.written (part : Part) : List Placed :=
  part.opener :: part.rest

/-- One parameter as it is written. -/
structure Item where
  lead : List Placed
  type? : Option Part
  name : Placed
  trail : List Placed
  default? : Option Part
  deriving Repr, DecidableEq

namespace Item

/-- The tokens of the type, which are none for an untyped parameter. -/
def typeWords (item : Item) : List Placed :=
  item.type?.elim [] Part.written

/-- The tokens of the default, without the equals sign that opens it. -/
def defaultWords (item : Item) : List Placed :=
  item.default?.elim [] Part.rest

/-- The tokens of an item in order. -/
def written (item : Item) : List Placed :=
  item.lead ++
    (item.typeWords ++
      item.name :: (item.trail ++ item.default?.elim [] Part.written))

/-- The tokens of an item from which its parameter is made. -/
def contributing (item : Item) : List Placed :=
  item.typeWords ++ item.name :: item.defaultWords

/-- The shape of an item, part by part. -/
structure Shaped (item : Item) : Prop where
  leadFiller : ∀ word ∈ item.lead, word.letter = .filler
  typeOpened : ∀ part ∈ item.type?, part.opener.letter = .typeWord
  typeContinued :
    ∀ part ∈ item.type?,
      ∀ word ∈ part.rest, word.letter ≠ .name ∧ word.letter ≠ .equals
  nameNamed : item.name.letter = .name
  trailFiller : ∀ word ∈ item.trail, word.letter = .filler
  defaultOpened : ∀ part ∈ item.default?, part.opener.letter = .equals
  defaultContinued :
    ∀ part ∈ item.default?, ∀ word ∈ part.rest, word.letter ≠ .separator

/-- Whether the type of an item begins with the optional marker. -/
def IsOptional
    (config : Config)
    (item : Item) : Prop :=
  ∃ part ∈ item.type?, part.opener.token.text = config.optionalMarker

/-- An optional item has no default, or the null literal for one. -/
def Acceptable
    (config : Config)
    (item : Item) : Prop :=
  item.IsOptional config →
    textOf item.defaultWords = "" ∨
      textOf item.defaultWords = config.nullDefault

/-- A name is a text less one leading dollar, if it has one. -/
def Names (text name : String) : Prop :=
  text = "$" ++ name ∨ (name = text ∧ ∀ rest, text ≠ "$" ++ rest)

/-- What the parameter of an item is. -/
structure Describes
    (config : Config)
    (item : Item)
    (parameter : Parameter) : Prop where
  name : Names item.name.token.text parameter.name
  declaredType : parameter.declaredType = textOf item.typeWords
  defaultText : parameter.defaultText = textOf item.defaultWords
  nullDefault : parameter.nullDefault = config.nullDefault
  optional : parameter.category = .optional ↔ item.IsOptional config
  withDefault :
    parameter.category = .withDefault ↔
      ¬ item.IsOptional config ∧ parameter.defaultText ≠ ""
  mandatory :
    parameter.category = .mandatory ↔
      ¬ item.IsOptional config ∧ parameter.defaultText = ""

end Item

/--
The parameter lists and their items: items that a separator ends, and behind
them either one more item or nothing but filler.
-/
inductive Listed : List Placed → List Item → Prop where
  | filler
      {words : List Placed} :
      (∀ word ∈ words, word.letter = .filler) →
      Listed words []
  | last
      {item : Item} :
      item.Shaped →
      Listed item.written [item]
  | cons
      {item : Item}
      {comma : Placed}
      {rest : List Placed}
      {items : List Item} :
      item.Shaped →
      comma.letter = .separator →
      Listed rest items →
      Listed (item.written ++ comma :: rest) (item :: items)

/--
The tokens outside every default. A default runs from an equals sign to the
next separator; `inside` tells whether the list starts in the middle of one.
-/
def outsideDefaults (inside : Bool) : List Placed → List Placed
  | [] => []
  | word :: rest =>
      if inside && decide (word.letter ≠ .separator) then
        outsideDefaults true rest
      else
        word :: outsideDefaults (decide (word.letter = .equals)) rest

end DocAudit.Signature
