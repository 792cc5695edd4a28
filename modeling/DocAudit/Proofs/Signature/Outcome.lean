import DocAudit.Proofs.Signature.Grammar
import DocAudit.Signature.Draft

namespace DocAudit.Signature

/-!
# What becomes of an item

The draft of an item holds its tokens in the order of reading. It turns into the
parameter that the item describes, unless the item is optional and has a default
other than the null literal. A parameter made from a draft never contradicts its
category.
-/

namespace Draft

/-- The parameter of a draft, before its default is looked at. -/
def record
    (config : Config)
    (draft : Draft) :
    Parameter where
  name := draft.name
  declaredType := draft.declaredType
  category := draft.category
  defaultText := draft.defaultText
  nullDefault := config.nullDefault

theorem violation?_record
    {config : Config}
    {draft : Draft}
    (allowed : draft.hasWrongDefault config = false) :
    (draft.record config).violation? = none := by
  by_cases optional : draft.optional = true
  · have nullOrEmpty :
        ¬ (draft.defaultText ≠ "" ∧ draft.defaultText ≠ config.nullDefault) := by
      simpa [hasWrongDefault, optional] using allowed
    simp only [Parameter.violation?, record, category, if_pos optional,
      if_neg nullOrEmpty]
  · by_cases empty : draft.defaultText = ""
    · simp [Parameter.violation?, record, category, optional, empty]
    · simp [Parameter.violation?, record, category, optional, empty]

theorem parameter_eq_record
    {config : Config}
    {draft : Draft}
    (allowed : draft.hasWrongDefault config = false) :
    draft.parameter config = .ok (draft.record config) := by
  have valid : (draft.record config).checked = .ok (draft.record config) := by
    simp [Parameter.checked, violation?_record allowed]
  unfold parameter
  rw [if_neg (by simp [allowed])]
  change ((draft.record config).checked).mapError Fault.invalidParameter = _
  rw [valid]
  rfl

/-- A wrong default is reported at its first token. -/
theorem parameter_eq_error
    {config : Config}
    {draft : Draft}
    (wrong : draft.hasWrongDefault config = true) :
    draft.parameter config =
      .error
        (.blaming draft.defaultTokens.head? fun token =>
          .optionalDefault token draft.defaultText config.nullDefault) := by
  simp [parameter, wrong]

end Draft

namespace Item

/-- The draft of an item of which all tokens were read. -/
def draft
    (config : Config)
    (item : Item) :
    Draft where
  typeTokens? := none
  name := Draft.nameOf item.name.token
  declaredType := textOf item.typeWords
  optional := Draft.isOptional config (item.typeWords.map Placed.token)
  defaultTokens? := item.default?.map fun part => part.rest.map Placed.token

/-- The parameter that is made from an item. -/
def parameter
    (config : Config)
    (item : Item) :
    Parameter :=
  (item.draft config).record config

theorem defaultTokens_draft
    (config : Config)
    (item : Item) :
    (item.draft config).defaultTokens = item.defaultWords.map Placed.token := by
  cases given : item.default? <;>
    simp [Draft.defaultTokens, draft, defaultWords, given]

theorem defaultText_draft
    (config : Config)
    (item : Item) :
    (item.draft config).defaultText = textOf item.defaultWords := by
  rw [Draft.defaultText, defaultTokens_draft]
  rfl

theorem optional_draft_iff
    (config : Config)
    (item : Item) :
    (item.draft config).optional = true ↔ item.IsOptional config := by
  cases given : item.type? <;>
    simp [Draft.isOptional, draft, typeWords, IsOptional, given, Part.written]

/-- The default of the draft is wrong when the item is not acceptable. -/
theorem hasWrongDefault_draft_eq_false_iff
    (config : Config)
    (item : Item) :
    (item.draft config).hasWrongDefault config = false ↔
      item.Acceptable config := by
  rw [Acceptable, ← optional_draft_iff, Draft.hasWrongDefault, defaultText_draft]
  by_cases optional : (item.draft config).optional = true
  · simp only [optional, Bool.true_and, forall_const, Bool.and_eq_false_iff,
      decide_eq_false_iff_not, ne_eq, Decidable.not_not]
  · simp [optional]

/-- A default that is wrong has a first token. -/
theorem exists_defaultWords
    {config : Config}
    {item : Item}
    (wrong : ¬ item.Acceptable config) :
    ∃ first rest, item.defaultWords = first :: rest := by
  cases given : item.defaultWords with
  | cons first rest => exact ⟨first, rest, rfl⟩
  | nil =>
      refine (wrong fun _ => .inl ?_).elim
      rw [given]
      rfl

theorem names_nameOf (token : Token) :
    Names token.text (Draft.nameOf token) := by
  unfold Draft.nameOf
  split
  · rename_i rest text
    left
    apply String.toList_inj.mp
    simp [text]
  · rename_i noDollar
    right
    refine ⟨rfl, ?_⟩
    intro rest text
    apply noDollar rest.toList
    simp [text]

/-- The parameter that is made from an item is the one that it describes. -/
theorem describes_parameter
    (config : Config)
    (item : Item) :
    item.Describes config (item.parameter config) := by
  have categoryShape :
      (item.parameter config).category = (item.draft config).category := rfl
  have textShape :
      (item.parameter config).defaultText = (item.draft config).defaultText := rfl
  refine
    { name := names_nameOf item.name.token
      declaredType := rfl
      defaultText := defaultText_draft config item
      nullDefault := rfl
      optional := ?_
      withDefault := ?_
      mandatory := ?_ }
  all_goals
    rw [categoryShape, ← optional_draft_iff]
    by_cases optional : (item.draft config).optional = true
    · simp [Draft.category, optional]
    · by_cases empty : (item.draft config).defaultText = "" <;>
        simp [Draft.category, optional, empty, textShape]

end Item

end DocAudit.Signature
