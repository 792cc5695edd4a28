import Mathlib.Data.List.Perm.Basic
import DocAudit.Proofs.Signature.Acceptance

namespace DocAudit.Signature

/-!
# Every token is accounted for

The items of a parameter list use its tokens once each. What no item uses is the
separator that ends an item, the equals sign that opens a default, or filler. The
names that stand outside every default are the names of the items, so the list
has as many parameters as it has such names.
-/

namespace Item

/-- The equals sign that opens the default of an item, if it has one. -/
def defaultOpeners (item : Item) : List Placed :=
  item.default?.elim [] fun part => [part.opener]

/-- The tokens around the name and the type of an item that belong to neither. -/
def loose (item : Item) : List Placed :=
  item.lead ++ item.trail

/-- The tokens of an item without its default. -/
def front (item : Item) : List Placed :=
  item.lead ++ (item.typeWords ++ item.name :: item.trail)

theorem written_eq_front (item : Item) :
    item.written = item.front ++ item.default?.elim [] Part.written := by
  simp [written, front]

theorem contributing_sublist_written (item : Item) :
    item.contributing.Sublist item.written := by
  have defaultKept :
      item.defaultWords.Sublist
        (item.trail ++ item.default?.elim [] Part.written) := by
    apply List.Sublist.trans _ (List.sublist_append_right _ _)
    cases given : item.default? with
    | none => simp [defaultWords, given]
    | some part => simp [defaultWords, given, Part.written]
  have typeKept :
      item.contributing.Sublist
        (item.typeWords ++
          item.name :: (item.trail ++ item.default?.elim [] Part.written)) :=
    (List.Sublist.refl item.typeWords).append (defaultKept.cons_cons item.name)
  exact typeKept.trans (List.sublist_append_right _ _)

/-- The tokens of an item are used, open its default, or are loose. -/
theorem perm_written (item : Item) :
    (item.contributing ++ (item.defaultOpeners ++ item.loose)).Perm item.written := by
  rw [List.perm_iff_count]
  intro word
  cases given : item.default? with
  | none =>
      simp only [contributing, defaultOpeners, loose, written, defaultWords, given,
        Option.elim, List.count_append, List.count_cons, List.count_nil]
      omega
  | some part =>
      simp only [contributing, defaultOpeners, loose, written, defaultWords, given,
        Option.elim, Part.written, List.count_append, List.count_cons, List.count_nil]
      omega

variable {item : Item}

theorem Shaped.letter_of_mem_loose
    (shaped : item.Shaped)
    {word : Placed}
    (member : word ∈ item.loose) :
    word.letter = .filler := by
  rcases List.mem_append.mp member with inLead | inTrail
  · exact shaped.leadFiller word inLead
  · exact shaped.trailFiller word inTrail

theorem Shaped.letter_of_mem_typeWords
    (shaped : item.Shaped)
    {word : Placed}
    (member : word ∈ item.typeWords) :
    word.letter ≠ .name ∧ word.letter ≠ .equals := by
  cases given : item.type? with
  | none => simp [typeWords, given] at member
  | some part =>
      have inPart : word ∈ part.opener :: part.rest := by
        simpa [typeWords, given, Part.written] using member
      rcases List.mem_cons.mp inPart with isOpener | inRest
      · have opened := shaped.typeOpened part given
        rw [← isOpener] at opened
        simp [opened]
      · exact shaped.typeContinued part given word inRest

theorem Shaped.letter_of_mem_front
    (shaped : item.Shaped)
    {word : Placed}
    (member : word ∈ item.front) :
    word.letter ≠ .equals := by
  rcases List.mem_append.mp member with inLead | behind
  · simp [shaped.leadFiller word inLead]
  · rcases List.mem_append.mp behind with inType | atName
    · exact (shaped.letter_of_mem_typeWords inType).2
    · rcases List.mem_cons.mp atName with isName | inTrail
      · simp [isName, shaped.nameNamed]
      · simp [shaped.trailFiller word inTrail]

theorem Shaped.names_front
    (shaped : item.Shaped) :
    item.front.filter Placed.isName =
      [item.name] := by
  have noLead :
      item.lead.filter Placed.isName = [] := by
    rw [List.filter_eq_nil_iff]
    intro word member
    simp [Placed.isName, shaped.leadFiller word member]
  have noType :
      item.typeWords.filter Placed.isName = [] := by
    rw [List.filter_eq_nil_iff]
    intro word member
    simp [Placed.isName, (shaped.letter_of_mem_typeWords member).1]
  have noTrail :
      item.trail.filter Placed.isName = [] := by
    rw [List.filter_eq_nil_iff]
    intro word member
    simp [Placed.isName, shaped.trailFiller word member]
  have nameKept : item.name.isName = true := by
    simp [Placed.isName, shaped.nameNamed]
  simp [front, noLead, noType, noTrail, nameKept]

end Item

theorem outsideDefaults_append
    (words rest : List Placed)
    (noDefault : ∀ word ∈ words, word.letter ≠ .equals) :
    outsideDefaults false (words ++ rest) = words ++ outsideDefaults false rest := by
  induction words with
  | nil =>
      rfl
  | cons word more inductionHypothesis =>
      obtain ⟨atHead, inMore⟩ := List.forall_mem_cons.mp noDefault
      simp [outsideDefaults, atHead, inductionHypothesis inMore]

theorem outsideDefaults_inside
    {words : List Placed}
    (rest : List Placed)
    (noEnd : ∀ word ∈ words, word.letter ≠ .separator) :
    outsideDefaults true (words ++ rest) = outsideDefaults true rest := by
  induction words with
  | nil =>
      rfl
  | cons word more inductionHypothesis =>
      obtain ⟨atHead, inMore⟩ := List.forall_mem_cons.mp noEnd
      simp [outsideDefaults, atHead, inductionHypothesis inMore]

/-- A default is left out up to the separator behind it. -/
theorem Item.Shaped.outsideDefaults_written
    {item : Item}
    (shaped : item.Shaped)
    (rest : List Placed)
    (bounded : ∀ word ∈ rest.head?, word.letter = .separator) :
    (outsideDefaults false (item.written ++ rest)).filter
        Placed.isName =
      item.name ::
        (outsideDefaults false rest).filter
          Placed.isName := by
  have frontKept :
      outsideDefaults false (item.written ++ rest) =
        item.front ++
          outsideDefaults false (item.default?.elim [] Part.written ++ rest) := by
    rw [Item.written_eq_front, List.append_assoc]
    exact outsideDefaults_append _ _ fun word => shaped.letter_of_mem_front
  rw [frontKept, List.filter_append, shaped.names_front, List.singleton_append]
  congr 1
  cases given : item.default? with
  | none =>
      rfl
  | some part =>
      have opened := shaped.defaultOpened part given
      have continued := shaped.defaultContinued part given
      have skipped :
          outsideDefaults false (part.written ++ rest) =
            part.opener :: outsideDefaults true rest := by
        simp [Part.written, outsideDefaults, opened,
          outsideDefaults_inside rest continued]
      have noName : part.opener.isName = false := by
        simp [Placed.isName, opened]
      simp only [Option.elim, skipped]
      cases rest with
      | nil =>
          simp [outsideDefaults, noName]
      | cons comma more =>
          have separates : comma.letter = .separator := bounded comma rfl
          simp [outsideDefaults, noName, separates]

namespace Listed

variable
  {words : List Placed}
  {items : List Item}

/-- The names outside every default are the names of the items. -/
theorem names
    (listed : Listed words items) :
    (outsideDefaults false words).filter
        Placed.isName =
      items.map Item.name := by
  induction listed with
  | @filler words filler =>
      have noDefault : ∀ word ∈ words, word.letter ≠ .equals := by
        intro word member
        simp [filler word member]
      have allKept := outsideDefaults_append words [] noDefault
      rw [List.append_nil] at allKept
      rw [allKept, outsideDefaults, List.append_nil, List.map_nil,
        List.filter_eq_nil_iff]
      intro word member
      simp [Placed.isName, filler word member]
  | last shaped =>
      have named := shaped.outsideDefaults_written [] (by simp)
      simpa [outsideDefaults] using named
  | @cons item comma rest items shaped separates _ inductionHypothesis =>
      have named := shaped.outsideDefaults_written (comma :: rest)
        (by simpa using separates)
      rw [named]
      simp [outsideDefaults, Placed.isName, separates, inductionHypothesis]

theorem contributing_sublist
    (listed : Listed words items) :
    (items.flatMap Item.contributing).Sublist words := by
  induction listed with
  | filler _ =>
      exact List.nil_sublist _
  | @last item _ =>
      simpa using item.contributing_sublist_written
  | @cons item comma rest items _ _ _ inductionHypothesis =>
      rw [List.flatMap_cons]
      exact item.contributing_sublist_written.append (inductionHypothesis.cons comma)

/--
What no item uses opens the default of an item, ends an item, or is filler. Every
item but the last is ended by a separator of its own.
-/
theorem exists_unused
    (listed : Listed words items) :
    ∃ closing filler,
      (items.flatMap Item.contributing ++
            (items.flatMap Item.defaultOpeners ++ (closing ++ filler))).Perm
          words ∧
        (∀ word ∈ closing, word.letter = .separator) ∧
          (closing.length = items.length ∨ closing.length + 1 = items.length) ∧
            ∀ word ∈ filler, word.letter = .filler := by
  induction listed with
  | @filler words filler =>
      exact ⟨[], words, List.Perm.refl _, by simp, by simp, filler⟩
  | @last item shaped =>
      exact
        ⟨[], item.loose, by simpa using item.perm_written, by simp, by simp,
          fun word => shaped.letter_of_mem_loose⟩
  | @cons item comma rest items shaped separates _ inductionHypothesis =>
      obtain ⟨closing, filler, split, allClose, count, allFiller⟩ := inductionHypothesis
      refine ⟨comma :: closing, item.loose ++ filler, ?_, ?_, ?_, ?_⟩
      · rw [List.perm_iff_count] at split ⊢
        intro word
        have here := (List.perm_iff_count.mp item.perm_written) word
        have there := split word
        simp only [List.flatMap_cons, List.count_append, List.count_cons]
          at here there ⊢
        omega
      · exact List.forall_mem_cons.mpr ⟨separates, allClose⟩
      · simp only [List.length_cons]
        omega
      · intro word member
        rcases List.mem_append.mp member with inItem | behind
        · exact shaped.letter_of_mem_loose inItem
        · exact allFiller word behind

end Listed

/-- How the tokens of a list are handed out to the items of its parameters. -/
structure Accounts
    (words : List Placed)
    (items : List Item) : Prop where
  listed : Listed words items
  unique : ∀ others, Listed words others → others = items
  names : (outsideDefaults false words).filter Placed.isName = items.map Item.name
  inOrder : (items.flatMap Item.contributing).Sublist words
  onceEach :
    ∃ closing filler,
      (items.flatMap Item.contributing ++
            (items.flatMap Item.defaultOpeners ++ (closing ++ filler))).Perm
          words ∧
        (∀ word ∈ closing, word.letter = .separator) ∧
          (closing.length = items.length ∨ closing.length + 1 = items.length) ∧
            ∀ word ∈ filler, word.letter = .filler

theorem Listed.accounts
    {words : List Placed}
    {items : List Item}
    (listed : Listed words items) :
    Accounts words items where
  listed := listed
  unique _ again := listed.unique again
  names := listed.names
  inOrder := listed.contributing_sublist
  onceEach := listed.exists_unused

/--
The parameters that are read are those of the items of the list, one for every
name outside the defaults, and each token serves one of them or none.
-/
theorem parameters_account_for_tokens
    {config : Config}
    {tokens : List Token}
    {answer : List Parameter}
    (read : parameters config tokens = .ok answer) :
    ∃ items,
      Accounts (placed (tokens.filter Token.isSignificant)) items ∧
        List.Forall₂ (Item.Describes config) items answer := by
  obtain ⟨items, listed, _, rfl⟩ := parameters_eq_ok_iff.mp read
  refine ⟨items, listed.accounts, ?_⟩
  rw [List.forall₂_map_right_iff, List.forall₂_same]
  intro item _
  exact item.describes_parameter config

/--
A parameter list with a comma in a type and one in a default, a second dollar, a
name inside a default, and a separator at its end.
-/
def nestedList : List Token :=
  [⟨.typeWord, "Optional", .first⟩, ⟨.openBracket, "[", .first⟩,
    ⟨.typeWord, "Integer", .first⟩, ⟨.comma, ",", .first⟩,
    ⟨.other, "1", .first⟩, ⟨.closeBracket, "]", .first⟩,
    ⟨.whitespace, " ", .first⟩, ⟨.parameterName, "$port", .first⟩,
    ⟨.equals, "=", .first⟩, ⟨.other, "undef", .first⟩, ⟨.comma, ",", .first⟩,
    ⟨.parameterName, "$$hosts", .first⟩, ⟨.equals, "=", .first⟩,
    ⟨.openBracket, "[", .first⟩, ⟨.parameterName, "$first", .first⟩,
    ⟨.comma, ",", .first⟩, ⟨.closeBracket, "]", .first⟩, ⟨.comma, ",", .first⟩]

/-- The nested list is read, and its tokens are accounted for. -/
theorem parameters_account_for_nestedList :
    parameters Config.standard nestedList =
        .ok
          [⟨"port", "Optional[Integer,1]", .optional, "undef", "undef"⟩,
            ⟨"$hosts", "", .withDefault, "[$first,]", "undef"⟩] ∧
      ∃ items,
        Accounts (placed (nestedList.filter Token.isSignificant)) items ∧
          List.Forall₂ (Item.Describes Config.standard) items
            [⟨"port", "Optional[Integer,1]", .optional, "undef", "undef"⟩,
              ⟨"$hosts", "", .withDefault, "[$first,]", "undef"⟩] :=
  ⟨rfl, parameters_account_for_tokens rfl⟩

end DocAudit.Signature
