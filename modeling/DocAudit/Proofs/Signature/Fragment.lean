import DocAudit.Proofs.Signature.Grammar

namespace DocAudit.Signature

/-!
# Reading the grammar from left to right

A fragment is what was read of one item. Every letter extends a fragment in at
most one way, so the items of a word can be found in one pass. The main result
is that this pass finds exactly the derivations of the grammar, from which it
follows that the grammar is unambiguous.
-/

/-- A part with one more token. -/
def Part.push
    (part : Part)
    (word : Placed) :
    Part :=
  { part with rest := part.rest ++ [word] }

/-- Add a token to an item that has its name; a separator does not belong to it. -/
def Item.extend?
    (item : Item)
    (word : Placed) :
    Option Item :=
  match item.default?, word.letter with
  | none, .filler => some { item with trail := item.trail ++ [word] }
  | none, .equals => some { item with default? := some ⟨word, []⟩ }
  | none, _ => none
  | some _, .separator => none
  | some part, _ => some { item with default? := some (part.push word) }

/-- What was read of an item: filler, an open type behind filler, or all but its end. -/
inductive Fragment where
  | lead (words : List Placed)
  | typed (front : List Placed) (type : Part)
  | named (item : Item)
  deriving Repr, DecidableEq

namespace Fragment

/-- The fragment of an item of which nothing was read. -/
def blank : Fragment :=
  .lead []

/-- The tokens of a fragment in order. -/
def written : Fragment → List Placed
  | .lead words => words
  | .typed front type => front ++ type.written
  | .named item => item.written

/-- The shape of a fragment, as far as it goes. -/
def Shaped : Fragment → Prop
  | .lead words => ∀ word ∈ words, word.letter = .filler
  | .typed front type =>
      (∀ word ∈ front, word.letter = .filler) ∧
        type.opener.letter = .typeWord ∧
          ∀ word ∈ type.rest, word.letter ≠ .name ∧ word.letter ≠ .equals
  | .named item => item.Shaped

/-- Add a token to a fragment, if it can follow there. -/
def extend?
    (fragment : Fragment)
    (word : Placed) :
    Option Fragment :=
  match fragment with
  | .lead words =>
      match word.letter with
      | .filler => some (.lead (words ++ [word]))
      | .typeWord => some (.typed words ⟨word, []⟩)
      | .name => some (.named ⟨words, none, word, [], none⟩)
      | _ => none
  | .typed front type =>
      match word.letter with
      | .name => some (.named ⟨front, some type, word, [], none⟩)
      | .equals => none
      | _ => some (.typed front (type.push word))
  | .named item => (item.extend? word).map .named

end Fragment

theorem Item.extend?_of_separator
    {item : Item}
    {word : Placed}
    (separates : word.letter = .separator) :
    item.extend? word = none := by
  cases open? : item.default? <;>
    simp [Item.extend?, open?, separates]

theorem Item.extend?_of_default
    (lead : List Placed)
    (type? : Option Part)
    (name : Placed)
    (trail : List Placed)
    (part : Part)
    {word : Placed}
    (continues : word.letter ≠ .separator) :
    Item.extend? ⟨lead, type?, name, trail, some part⟩ word =
      some ⟨lead, type?, name, trail, some (part.push word)⟩ := by
  cases letter : word.letter with
  | separator => exact (continues letter).elim
  | _ => simp [Item.extend?, letter]

theorem Fragment.extend?_of_typed
    (front : List Placed)
    (type : Part)
    {word : Placed}
    (notName : word.letter ≠ .name)
    (notEquals : word.letter ≠ .equals) :
    Fragment.extend? (.typed front type) word = some (.typed front (type.push word)) := by
  cases letter : word.letter with
  | name => exact (notName letter).elim
  | equals => exact (notEquals letter).elim
  | _ => simp [Fragment.extend?, letter]

/-- What holds of the tokens read before and of one more holds of them together. -/
theorem forall_mem_push
    {words : List Placed}
    {word : Placed}
    {holds : Placed → Prop}
    (before : ∀ other ∈ words, holds other)
    (atEnd : holds word) :
    ∀ other ∈ words ++ [word], holds other :=
  List.forall_mem_append.mpr ⟨before, List.forall_mem_singleton.mpr atEnd⟩

/-- Behind a name, filler and an equals sign keep the shape of an item. -/
theorem Item.extend?_trail_eq_some
    {lead : List Placed}
    {type? : Option Part}
    {name word : Placed}
    {trail : List Placed}
    {next : Item}
    (extended : Item.extend? ⟨lead, type?, name, trail, none⟩ word = some next)
    (shaped : Item.Shaped ⟨lead, type?, name, trail, none⟩) :
    next.Shaped ∧
      next.written = Item.written ⟨lead, type?, name, trail, none⟩ ++ [word] := by
  cases letter : word.letter with
  | filler =>
      simp only [Item.extend?, letter, Option.some.injEq] at extended
      subst next
      refine ⟨{ shaped with trailFiller := ?_ }, ?_⟩
      · exact forall_mem_push shaped.trailFiller letter
      · simp [Item.written, Item.typeWords]
  | equals =>
      simp only [Item.extend?, letter, Option.some.injEq] at extended
      subst next
      refine ⟨{ shaped with
        defaultOpened := ?_
        defaultContinued := ?_ }, ?_⟩
      · rintro part ⟨⟩
        exact letter
      · rintro part ⟨⟩
        simp
      · simp [Item.written, Item.typeWords, Part.written]
  | typeWord => simp [Item.extend?, letter] at extended
  | name => simp [Item.extend?, letter] at extended
  | separator => simp [Item.extend?, letter] at extended

/-- In a default, everything but a separator keeps the shape of an item. -/
theorem Item.extend?_default_eq_some
    {lead : List Placed}
    {type? : Option Part}
    {name word : Placed}
    {trail : List Placed}
    {part : Part}
    {next : Item}
    (extended : Item.extend? ⟨lead, type?, name, trail, some part⟩ word = some next)
    (shaped : Item.Shaped ⟨lead, type?, name, trail, some part⟩) :
    next.Shaped ∧
      next.written = Item.written ⟨lead, type?, name, trail, some part⟩ ++ [word] := by
  have continues : word.letter ≠ .separator := by
    intro separates
    rw [Item.extend?_of_separator separates] at extended
    cases extended
  rw [Item.extend?_of_default lead type? name trail part continues] at extended
  cases extended
  refine ⟨{ shaped with
    defaultOpened := ?_
    defaultContinued := ?_ }, ?_⟩
  · rintro other ⟨⟩
    exact shaped.defaultOpened part rfl
  · rintro other ⟨⟩
    exact forall_mem_push (shaped.defaultContinued part rfl) continues
  · simp [Item.written, Item.typeWords, Part.written, Part.push]

theorem Item.extend?_eq_some
    {item next : Item}
    {word : Placed}
    (extended : item.extend? word = some next)
    (shaped : item.Shaped) :
    next.Shaped ∧ next.written = item.written ++ [word] := by
  rcases item with ⟨lead, type?, name, trail, default?⟩
  cases default? with
  | none => exact Item.extend?_trail_eq_some extended shaped
  | some part => exact Item.extend?_default_eq_some extended shaped

/-- The name of a parameter makes an item of what stands in front of it. -/
theorem Item.shaped_of_name
    {lead : List Placed}
    {type? : Option Part}
    {name : Placed}
    (leadFiller : ∀ word ∈ lead, word.letter = .filler)
    (typeOpened : ∀ part ∈ type?, part.opener.letter = .typeWord)
    (typeContinued :
      ∀ part ∈ type?,
        ∀ word ∈ part.rest, word.letter ≠ .name ∧ word.letter ≠ .equals)
    (named : name.letter = .name) :
    Item.Shaped ⟨lead, type?, name, [], none⟩ where
  leadFiller := leadFiller
  typeOpened := typeOpened
  typeContinued := typeContinued
  nameNamed := named
  trailFiller := by simp
  defaultOpened := by simp
  defaultContinued := by simp

namespace Fragment

/-- Extending a fragment keeps its shape and appends the token. -/
theorem extend?_eq_some
    {fragment next : Fragment}
    {word : Placed}
    (extended : fragment.extend? word = some next)
    (shaped : fragment.Shaped) :
    next.Shaped ∧ next.written = fragment.written ++ [word] := by
  cases fragment with
  | lead words =>
      cases letter : word.letter with
      | filler =>
          simp only [extend?, letter, Option.some.injEq] at extended
          subst next
          exact ⟨forall_mem_push shaped letter, rfl⟩
      | typeWord =>
          simp only [extend?, letter, Option.some.injEq] at extended
          subst next
          exact ⟨⟨shaped, letter, by simp⟩, rfl⟩
      | name =>
          simp only [extend?, letter, Option.some.injEq] at extended
          subst next
          refine ⟨Item.shaped_of_name shaped (by simp) (by simp) letter, ?_⟩
          simp [written, Item.written, Item.typeWords]
      | equals => simp [extend?, letter] at extended
      | separator => simp [extend?, letter] at extended
  | typed front type =>
      obtain ⟨leadFiller, opened, continued⟩ := shaped
      by_cases named : word.letter = .name
      · simp only [extend?, named, Option.some.injEq] at extended
        subst next
        refine
          ⟨Item.shaped_of_name leadFiller (by simpa using opened)
            (by simpa using continued) named, ?_⟩
        simp [written, Item.written, Item.typeWords]
      · by_cases opensDefault : word.letter = .equals
        · simp [extend?, opensDefault] at extended
        · rw [extend?_of_typed front type named opensDefault] at extended
          cases extended
          refine ⟨⟨leadFiller, opened, ?_⟩, ?_⟩
          · exact forall_mem_push continued ⟨named, opensDefault⟩
          · simp [written, Part.written, Part.push]
  | named item =>
      obtain ⟨longer, extendedItem, rfl⟩ := Option.map_eq_some_iff.mp extended
      exact Item.extend?_eq_some extendedItem shaped

end Fragment

end DocAudit.Signature
