import DocAudit.Config
import DocAudit.Proofs.Text.Literal

namespace DocAudit.Config

/-!
# Settings from an environment

An environment is checked in one order: the indent has to write an integer, neither
word may be empty, and the integer has to be positive. The first check that fails is
reported, and where none fails the settings are those that the environment asks for.
Settings come back from an environment that holds them, however their indent is
written. The main result is `ofEnvironment_settles`.
-/

/-- What an environment comes to, by the first check that fails. -/
inductive Settles
    (rules : Text.LiteralRules)
    (environment : Environment) :
    Except Violation Config → Prop where
  | indentNotInteger :
      (∀ indent, ¬ Text.Writes rules environment.indentText indent) →
      Settles rules environment (.error (.indentNotInteger environment.indentText))
  | emptyMarker
      {indent : Int} :
      Text.Writes rules environment.indentText indent →
      environment.marker? = some "" →
      Settles rules environment (.error .emptyMarker)
  | emptyNull
      {indent : Int} :
      Text.Writes rules environment.indentText indent →
      environment.marker? ≠ some "" →
      environment.null? = some "" →
      Settles rules environment (.error .emptyNull)
  | indentTooSmall
      {indent : Int} :
      Text.Writes rules environment.indentText indent →
      environment.marker? ≠ some "" →
      environment.null? ≠ some "" →
      indent < 1 →
      Settles rules environment (.error (.indentTooSmall indent))
  | accepted
      {config : Config} :
      Text.Writes rules environment.indentText config.descriptionIndent →
      config.optionalMarker = environment.marker →
      config.nullDefault = environment.null →
      Settles rules environment (.ok config)

/-- The environment that holds settings, with some text for their indent. -/
def toEnvironment
    (config : Config)
    (indentText : String) :
    Environment where
  marker? := some config.optionalMarker
  null? := some config.nullDefault
  indent? := some indentText

section Checks

variable
  {rules : Text.LiteralRules}
  {environment : Environment}
  {answer : Except Violation Config}
  {indent : Int}

/-- The marker is empty only when it is set so. -/
theorem marker_eq_empty_iff :
    environment.marker = "" ↔ environment.marker? = some "" := by
  cases isSet : environment.marker? <;> simp [Environment.marker, standardMarker, isSet]

/-- The null literal is empty only when it is set so. -/
theorem null_eq_empty_iff :
    environment.null = "" ↔ environment.null? = some "" := by
  cases isSet : environment.null? <;> simp [Environment.null, standardNull, isSet]

/-- Settings are accepted as they are. -/
theorem create_fields (config : Config) :
    create config.optionalMarker config.nullDefault config.descriptionIndent = .ok config := by
  have positive : (1 : Int) ≤ config.descriptionIndent := by
    exact_mod_cast config.indentPositive
  simp [create, config.markerNonempty, config.nullNonempty, positive]

/-- An indent that is written is checked together with the two words. -/
theorem ofEnvironment_of_writes
    (writes : Text.Writes rules environment.indentText indent) :
    ofEnvironment environment rules = create environment.marker environment.null indent := by
  rw [ofEnvironment, Text.integer?_eq_some_iff.mpr writes]

/-- An environment comes to what it is read as. -/
theorem settles_ofEnvironment
    (rules : Text.LiteralRules)
    (environment : Environment) :
    Settles rules environment (ofEnvironment environment rules) := by
  cases read : Text.integer? rules environment.indentText.toList with
  | none =>
      rw [ofEnvironment, read]
      refine .indentNotInteger fun indent writes => ?_
      rw [Text.integer?_eq_some_iff.mpr writes] at read
      cases read
  | some indent =>
      have writes := Text.integer?_eq_some_iff.mp read
      rw [ofEnvironment_of_writes writes, create]
      split
      · rename_i markerSet
        split
        · rename_i nullSet
          split
          · rename_i positive
            refine .accepted ?_ rfl rfl
            rwa [Int.toNat_of_nonneg (by omega)]
          · rename_i small
            exact .indentTooSmall writes (mt marker_eq_empty_iff.mpr markerSet)
              (mt null_eq_empty_iff.mpr nullSet) (Int.not_le.mp small)
        · rename_i nullEmpty
          exact .emptyNull writes (mt marker_eq_empty_iff.mpr markerSet)
            (null_eq_empty_iff.mp (Decidable.not_not.mp nullEmpty))
      · rename_i markerEmpty
        exact .emptyMarker writes (marker_eq_empty_iff.mp (Decidable.not_not.mp markerEmpty))

/-- What an environment comes to is what it is read as. -/
theorem Settles.ofEnvironment_eq
    (settles : Settles rules environment answer) :
    ofEnvironment environment rules = answer := by
  cases settles with
  | indentNotInteger unwritten =>
      cases read : Text.integer? rules environment.indentText.toList with
      | none => rw [ofEnvironment, read]
      | some indent => exact (unwritten indent (Text.integer?_eq_some_iff.mp read)).elim
  | emptyMarker writes markerEmpty =>
      rw [ofEnvironment_of_writes writes]
      simp [create, marker_eq_empty_iff.mpr markerEmpty]
  | emptyNull writes markerSet nullEmpty =>
      rw [ofEnvironment_of_writes writes]
      simp [create, mt marker_eq_empty_iff.mp markerSet, null_eq_empty_iff.mpr nullEmpty]
  | indentTooSmall writes markerSet nullSet small =>
      rw [ofEnvironment_of_writes writes]
      simp [create, mt marker_eq_empty_iff.mp markerSet, mt null_eq_empty_iff.mp nullSet,
        Int.not_le.mpr small]
  | accepted writes sameMarker sameNull =>
      rw [ofEnvironment_of_writes writes, ← sameMarker, ← sameNull, create_fields]

/-- Settings are given when the indent is a positive integer and no word is set to nothing. -/
theorem exists_ofEnvironment_iff :
    (∃ config, ofEnvironment environment rules = .ok config) ↔
      (∃ indent, Text.Writes rules environment.indentText indent ∧ 1 ≤ indent) ∧
        environment.marker? ≠ some "" ∧ environment.null? ≠ some "" := by
  constructor
  · rintro ⟨config, accepts⟩
    have settles := settles_ofEnvironment rules environment
    rw [accepts] at settles
    cases settles with
    | accepted writes sameMarker sameNull =>
        have markerSet := config.markerNonempty
        have nullSet := config.nullNonempty
        rw [sameMarker] at markerSet
        rw [sameNull] at nullSet
        exact
          ⟨⟨config.descriptionIndent, writes, by exact_mod_cast config.indentPositive⟩,
            mt marker_eq_empty_iff.mpr markerSet, mt null_eq_empty_iff.mpr nullSet⟩
  · rintro ⟨⟨indent, writes, positive⟩, markerSet, nullSet⟩
    rw [ofEnvironment_of_writes writes]
    simp [create, mt marker_eq_empty_iff.mp markerSet, mt null_eq_empty_iff.mp nullSet, positive]

/-- Settings come back from the environment that holds them. -/
theorem ofEnvironment_toEnvironment
    {config : Config}
    {text : String}
    (writes : Text.Writes rules text config.descriptionIndent) :
    ofEnvironment (config.toEnvironment text) rules = .ok config := by
  have settles : Settles rules (config.toEnvironment text) (.ok config) :=
    .accepted writes rfl rfl
  exact settles.ofEnvironment_eq

end Checks

/--
By any rules of literals, an environment comes to the first of its violations or to the
settings that it asks for: it gives settings exactly when its indent, or the standard
one, writes a positive integer and no word is set to nothing. Settings come back from
the environment that holds them with any text that writes their indent, such as its
digits behind zeros. The rules decide how many digits and which blank characters a
literal may have; where they set no limit, zeros can stand in front in any number.
-/
theorem ofEnvironment_settles (rules : Text.LiteralRules) :
    (∀ environment answer,
        ofEnvironment environment rules = answer ↔ Settles rules environment answer) ∧
      (∀ environment,
        (∃ config, ofEnvironment environment rules = .ok config) ↔
          (∃ indent, Text.Writes rules environment.indentText indent ∧ 1 ≤ indent) ∧
            environment.marker? ≠ some "" ∧ environment.null? ≠ some "") ∧
      (∀ (config : Config) (text : String),
        Text.Writes rules text config.descriptionIndent →
          ofEnvironment (config.toEnvironment text) rules = .ok config) ∧
      ∀ (config : Config) (zeros : Nat),
        rules.allows (zeros + (Nat.toDigits 10 config.descriptionIndent).length) = true →
          Text.Writes rules
            (String.ofList
              (List.replicate zeros '0' ++ Nat.toDigits 10 config.descriptionIndent))
            config.descriptionIndent := by
  refine ⟨?_, ?_, ?_, ?_⟩
  · intro environment answer
    refine ⟨?_, Settles.ofEnvironment_eq⟩
    rintro rfl
    exact settles_ofEnvironment rules environment
  · intro environment
    exact exists_ofEnvironment_iff
  · intro config text writes
    exact ofEnvironment_toEnvironment writes
  · intro config zeros allowed
    exact Text.writes_toDigits allowed

/-- A plus sign and two digits of other scripts, an underscore between them, in blanks. -/
def wideLiteral : Text.Literal .standard where
  before := ['\t', ' ']
  sign? := some .plus
  numeral := ⟨⟨'٠', 0, by decide⟩, [⟨⟨'２', 2, by decide⟩, true⟩]⟩
  after := ['\u3000']
  surrounds_before := List.all_eq_true.mp (by decide)
  surrounds_after := List.all_eq_true.mp (by decide)
  allowed := by decide

/-- Any blank characters may surround any number of digits. -/
def plainRules : Text.LiteralRules where
  surrounds := Text.isBlank
  digitLimit? := none
  isBlank_of_surrounds := fun _ blank => blank

/--
The standard settings come back with `wideLiteral` for their indent, and by plain rules
with more zeros in front of it than the standard rules allow.
-/
theorem ofEnvironment_settles_wideLiteral :
    Text.Writes .standard wideLiteral.text standard.descriptionIndent ∧
      ofEnvironment (standard.toEnvironment wideLiteral.text) .standard = .ok standard ∧
      plainRules.allows (5000 + (Nat.toDigits 10 standard.descriptionIndent).length) = true ∧
      ofEnvironment
          (standard.toEnvironment
            (String.ofList
              (List.replicate 5000 '0' ++ Nat.toDigits 10 standard.descriptionIndent)))
          plainRules =
        .ok standard := by
  have writes : Text.Writes .standard wideLiteral.text standard.descriptionIndent :=
    ⟨wideLiteral, rfl, by decide⟩
  obtain ⟨_, _, comesBack, _⟩ := ofEnvironment_settles .standard
  obtain ⟨_, _, comesBackPlain, written⟩ := ofEnvironment_settles plainRules
  exact
    ⟨writes, comesBack standard wideLiteral.text writes, rfl,
      comesBackPlain standard _ (written standard 5000 rfl)⟩

end DocAudit.Config
