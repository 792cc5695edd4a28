import DocAudit.Proofs.Signature.Fragment

namespace DocAudit.Signature

/-!
# Derivations from a fragment

A fragment is completed by the words that turn it into a parameter list. Since
every letter does one thing to a fragment, the items are a function of the word.
Completing the blank fragment is the same as being a word of the grammar, and so
the grammar gives each word one list of items.
-/

/-- What the words behind a fragment make of it: the items, in order. -/
inductive Completes : Fragment → List Placed → List Item → Prop where
  | filler
      {words : List Placed} :
      Completes (.lead words) [] []
  | item
      {item : Item} :
      Completes (.named item) [] [item]
  | extend
      {fragment next : Fragment}
      {word : Placed}
      {rest : List Placed}
      {items : List Item} :
      fragment.extend? word = some next →
      Completes next rest items →
      Completes fragment (word :: rest) items
  | close
      {item : Item}
      {comma : Placed}
      {rest : List Placed}
      {items : List Item} :
      comma.letter = .separator →
      Completes .blank rest items →
      Completes (.named item) (comma :: rest) (item :: items)

namespace Fragment

/-- Extend a fragment by one token after the other. -/
def extendAll? (fragment : Fragment) : List Placed → Option Fragment
  | [] => some fragment
  | word :: rest => (fragment.extend? word).bind fun next => next.extendAll? rest

theorem extendAll?_append
    (fragment : Fragment)
    (first second : List Placed) :
    fragment.extendAll? (first ++ second) =
      (fragment.extendAll? first).bind fun next => next.extendAll? second := by
  induction first generalizing fragment with
  | nil =>
      rfl
  | cons word rest inductionHypothesis =>
      cases extended : fragment.extend? word with
      | none => simp [extendAll?, extended]
      | some next => simp [extendAll?, extended, inductionHypothesis]

theorem extendAll?_lead
    (words : List Placed)
    {more : List Placed}
    (filler : ∀ word ∈ more, word.letter = .filler) :
    (lead words).extendAll? more = some (lead (words ++ more)) := by
  induction more generalizing words with
  | nil =>
      simp [extendAll?]
  | cons word rest inductionHypothesis =>
      obtain ⟨atHead, inRest⟩ := List.forall_mem_cons.mp filler
      simp [extendAll?, extend?, atHead, inductionHypothesis _ inRest]

theorem extendAll?_typed
    (front : List Placed)
    (type : Part)
    {more : List Placed}
    (continues : ∀ word ∈ more, word.letter ≠ .name ∧ word.letter ≠ .equals) :
    (typed front type).extendAll? more =
      some (typed front { type with rest := type.rest ++ more }) := by
  induction more generalizing type with
  | nil =>
      simp [extendAll?]
  | cons word rest inductionHypothesis =>
      obtain ⟨⟨notName, notEquals⟩, inRest⟩ := List.forall_mem_cons.mp continues
      simp [extendAll?, extend?_of_typed front type notName notEquals,
        inductionHypothesis _ inRest, Part.push]

section Named

variable
  (front : List Placed)
  (type? : Option Part)
  (name : Placed)
  (trail : List Placed)
  {more : List Placed}

theorem extendAll?_trail
    (filler : ∀ word ∈ more, word.letter = .filler) :
    (named ⟨front, type?, name, trail, none⟩).extendAll? more =
      some (named ⟨front, type?, name, trail ++ more, none⟩) := by
  induction more generalizing trail with
  | nil =>
      simp [extendAll?]
  | cons word rest inductionHypothesis =>
      obtain ⟨atHead, inRest⟩ := List.forall_mem_cons.mp filler
      simp [extendAll?, extend?, Item.extend?, atHead, inductionHypothesis _ inRest]

theorem extendAll?_default
    (part : Part)
    (continues : ∀ word ∈ more, word.letter ≠ .separator) :
    (named ⟨front, type?, name, trail, some part⟩).extendAll? more =
      some
        (named
          ⟨front, type?, name, trail, some ⟨part.opener, part.rest ++ more⟩⟩) := by
  induction more generalizing part with
  | nil =>
      simp [extendAll?]
  | cons word rest inductionHypothesis =>
      obtain ⟨atHead, inRest⟩ := List.forall_mem_cons.mp continues
      have pushed := Item.extend?_of_default front type? name trail part atHead
      simp [extendAll?, extend?, pushed, inductionHypothesis _ inRest, Part.push]

end Named

/-- The tokens of an item, one after the other, make up the item. -/
theorem extendAll?_written
    {item : Item}
    (shaped : item.Shaped) :
    blank.extendAll? item.written = some (named item) := by
  rcases item with ⟨front, type?, name, trail, default?⟩
  have typeRead :
      (lead front).extendAll? ((type?.elim [] Part.written) ++ [name]) =
        some (named ⟨front, type?, name, [], none⟩) := by
    cases type? with
    | none =>
        simp [extendAll?, extend?, shaped.nameNamed]
    | some type =>
        have opened : type.opener.letter = .typeWord := shaped.typeOpened type rfl
        have named : name.letter = .name := shaped.nameNamed
        have continued :=
          extendAll?_typed front ⟨type.opener, []⟩ (shaped.typeContinued type rfl)
        rw [extendAll?_append]
        simp [Part.written, extendAll?, extend?, opened, continued, named]
  have trailRead :
      (named ⟨front, type?, name, [], none⟩).extendAll? trail =
        some (named ⟨front, type?, name, trail, none⟩) :=
    extendAll?_trail front type? name [] shaped.trailFiller
  have defaultRead :
      (named ⟨front, type?, name, trail, none⟩).extendAll?
          (default?.elim [] Part.written) =
        some (named ⟨front, type?, name, trail, default?⟩) := by
    cases default? with
    | none =>
        rfl
    | some part =>
        have opened : part.opener.letter = .equals := shaped.defaultOpened part rfl
        have continued :=
          extendAll?_default front type? name trail ⟨part.opener, []⟩
            (shaped.defaultContinued part rfl)
        simpa [Part.written, extendAll?, extend?, Item.extend?, opened] using continued
  have split :
      Item.written ⟨front, type?, name, trail, default?⟩ =
        front ++
          ((type?.elim [] Part.written ++ [name]) ++
            (trail ++ default?.elim [] Part.written)) := by
    simp [Item.written, Item.typeWords]
  rw [split, extendAll?_append]
  have leadRead := extendAll?_lead [] shaped.leadFiller
  simp only [blank, leadRead, List.nil_append, Option.bind_some]
  rw [extendAll?_append, typeRead, Option.bind_some, extendAll?_append, trailRead,
    Option.bind_some, defaultRead]

end Fragment

namespace Completes

/-- Words that extend a fragment may be read in front of those that complete it. -/
theorem of_extendAll?
    {fragment next : Fragment}
    {words rest : List Placed}
    {items : List Item}
    (extended : fragment.extendAll? words = some next)
    (completes : Completes next rest items) :
    Completes fragment (words ++ rest) items := by
  induction words generalizing fragment with
  | nil =>
      cases extended
      exact completes
  | cons word more inductionHypothesis =>
      obtain ⟨middle, first, later⟩ := Option.bind_eq_some_iff.mp extended
      exact .extend first (inductionHypothesis later)

/-- Completing a well-shaped fragment gives a word of the grammar. -/
theorem listed
    {fragment : Fragment}
    {words : List Placed}
    {items : List Item}
    (completes : Completes fragment words items)
    (shaped : fragment.Shaped) :
    Listed (fragment.written ++ words) items := by
  induction completes with
  | filler =>
      simpa [Fragment.written] using Listed.filler shaped
  | item =>
      simpa [Fragment.written] using Listed.last shaped
  | extend extended rest inductionHypothesis =>
      obtain ⟨nextShaped, nextWritten⟩ := Fragment.extend?_eq_some extended shaped
      simpa [nextWritten] using inductionHypothesis nextShaped
  | close separates rest inductionHypothesis =>
      have restListed := inductionHypothesis (by simp [Fragment.blank, Fragment.Shaped])
      simp only [Fragment.blank, Fragment.written, List.nil_append] at restListed
      exact .cons shaped separates restListed

/-- A token that extends the fragment leaves the rest to complete what it extends to. -/
theorem extend_iff
    {fragment next : Fragment}
    {word : Placed}
    {rest : List Placed}
    {items : List Item}
    (extended : fragment.extend? word = some next) :
    Completes fragment (word :: rest) items ↔ Completes next rest items := by
  constructor
  · intro completes
    cases completes with
    | extend again later =>
        rw [extended] at again
        cases again
        exact later
    | close separates later =>
        simp [Fragment.extend?, Item.extend?_of_separator separates] at extended
  · exact .extend extended

/-- A separator leaves the rest to complete the blank fragment. -/
theorem close_iff
    {item : Item}
    {comma : Placed}
    {rest : List Placed}
    {items : List Item}
    (separates : comma.letter = .separator) :
    Completes (.named item) (comma :: rest) items ↔
      ∃ later, items = item :: later ∧ Completes .blank rest later := by
  constructor
  · intro completes
    cases completes with
    | extend extended later =>
        simp [Fragment.extend?, Item.extend?_of_separator separates] at extended
    | close _ later =>
        exact ⟨_, rfl, later⟩
  · rintro ⟨later, rfl, completes⟩
    exact .close separates completes

/-- A token that neither extends the fragment nor ends an item spoils every word. -/
theorem not_of_stuck
    {fragment : Fragment}
    {word : Placed}
    {rest : List Placed}
    {items : List Item}
    (stuck : fragment.extend? word = none)
    (noEnd : ∀ item, fragment = .named item → word.letter ≠ .separator) :
    ¬ Completes fragment (word :: rest) items := by
  intro completes
  cases completes with
  | extend extended later =>
      rw [stuck] at extended
      cases extended
  | close separates later =>
      exact noEnd _ rfl separates

/-- The items are a function of the fragment and the words. -/
theorem unique
    {fragment : Fragment}
    {words : List Placed}
    {items others : List Item}
    (completes : Completes fragment words items)
    (again : Completes fragment words others) :
    others = items := by
  induction completes generalizing others with
  | filler =>
      cases again
      rfl
  | item =>
      cases again
      rfl
  | extend extended rest inductionHypothesis =>
      cases again with
      | extend extendedAgain restAgain =>
          rw [extended] at extendedAgain
          cases extendedAgain
          exact inductionHypothesis restAgain
      | close separates restAgain =>
          simp [Fragment.extend?, Item.extend?_of_separator separates] at extended
  | close separates rest inductionHypothesis =>
      cases again with
      | extend extendedAgain restAgain =>
          simp [Fragment.extend?, Item.extend?_of_separator separates] at extendedAgain
      | close _ restAgain =>
          rw [inductionHypothesis restAgain]

end Completes

namespace Listed

theorem completes
    {words : List Placed}
    {items : List Item}
    (listed : Listed words items) :
    Completes .blank words items := by
  induction listed with
  | filler filler =>
      have read := Fragment.extendAll?_lead [] filler
      have completes := Completes.of_extendAll? read .filler
      rwa [List.append_nil] at completes
  | last shaped =>
      simpa using
        Completes.of_extendAll? (Fragment.extendAll?_written shaped) .item
  | cons shaped separates _ inductionHypothesis =>
      exact
        Completes.of_extendAll? (Fragment.extendAll?_written shaped)
          (.close separates inductionHypothesis)

/-- The words of the grammar are those that complete the blank fragment. -/
theorem iff_completes
    {words : List Placed}
    {items : List Item} :
    Listed words items ↔ Completes .blank words items := by
  constructor
  · exact completes
  · intro completes
    simpa [Fragment.blank, Fragment.written] using
      completes.listed (by simp [Fragment.blank, Fragment.Shaped])

/-- The grammar is unambiguous: a word has one list of items. -/
theorem unique
    {words : List Placed}
    {items others : List Item}
    (listed : Listed words items)
    (again : Listed words others) :
    others = items :=
  listed.completes.unique again.completes

end Listed

end DocAudit.Signature
