import DocAudit.Proofs.Agreement.Findings

namespace DocAudit.Agreement

open List

/-!
# Whom a difference in length names

Lists of different lengths are one finding, whatever their names are. It names what
the longer list has alone, which need not be anybody: the names of the longer list
may all occur in the shorter one if they repeat. If they do not repeat, the shorter
list cannot hold more of them than it has places, and the finding names as many as
the lengths differ by, at least. The main statement is `countFindings_of_lengths`.
-/

/--
The names that the longer one of two lists has alone, in its order and as often as they
stand there.
-/
structure Surplus
    (longer shorter names : List String) : Prop where
  inOrder : names <+ longer
  counts :
    ∀ name,
      names.count name = if name ∈ shorter then 0 else longer.count name
  enough : longer.Nodup → longer.length - shorter.length ≤ names.length
  repeats : names = [] → ¬ longer.Nodup

section Absent

variable {names present : List String}

theorem mem_absent_iff
    {name : String} :
    name ∈ absent names present ↔ name ∈ names ∧ name ∉ present := by
  simp [absent]

theorem absent_sublist
    (names present : List String) :
    absent names present <+ names :=
  List.filter_sublist

theorem count_absent
    (names present : List String)
    (name : String) :
    (absent names present).count name =
      if name ∈ present then 0 else names.count name := by
  split
  · rename_i isPresent
    rw [List.count_eq_zero, mem_absent_iff]
    exact fun alone => alone.2 isPresent
  · rename_i isAbsent
    exact List.count_filter (by simpa using isAbsent)

/-- Distinct names that are not absent need a place of their own among those present. -/
theorem length_le_absent
    (distinct : names.Nodup)
    (present : List String) :
    names.length ≤ present.length + (absent names present).length := by
  have covered : names ⊆ present ++ absent names present := by
    intro name member
    by_cases isPresent : name ∈ present
    · exact List.mem_append_left _ isPresent
    · exact List.mem_append_right _ (mem_absent_iff.mpr ⟨member, isPresent⟩)
  calc
    names.length ≤ (present ++ absent names present).length :=
      distinct.length_le_of_subset covered
    _ = present.length + (absent names present).length := List.length_append

theorem surplus_absent
    {longer shorter : List String}
    (isLonger : shorter.length < longer.length) :
    Surplus longer shorter (absent longer shorter) where
  inOrder := absent_sublist longer shorter
  counts := count_absent longer shorter
  enough := by
    intro distinct
    have places := length_le_absent distinct shorter
    omega
  repeats := by
    intro nobody distinct
    have places := length_le_absent distinct shorter
    rw [nobody, List.length_nil] at places
    omega

/-- The order and the counts leave no choice. -/
theorem Surplus.eq_absent
    {longer shorter : List String}
    (surplus : Surplus longer shorter names) :
    names = absent longer shorter := by
  have sameCounts : names.Perm (absent longer shorter) := by
    refine List.perm_iff_count.mpr fun name => ?_
    rw [surplus.counts, count_absent]
  have alone : ∀ name ∈ names, name ∉ shorter := by
    intro name member
    exact (mem_absent_iff.mp (sameCounts.subset member)).2
  have unfiltered : absent names shorter = names := by
    refine List.filter_eq_self.mpr fun name member => ?_
    simpa using alone name member
  have within : absent names shorter <+ absent longer shorter :=
    surplus.inOrder.filter _
  rw [unfiltered] at within
  exact within.eq_of_length sameCounts.length_eq

end Absent

/--
Lists of different lengths are one finding about the surplus of the longer one: names
without documentation if there are more parameters, unused ones if there are more
entries.
-/
theorem countFindings_of_lengths
    (parameters : List Parameter)
    (docs : List ParameterDoc) :
    (docs.length < parameters.length →
        ∃ names,
          countFindings parameters docs = [⟨.missing names, none⟩] ∧
            Surplus (parameters.map Parameter.name) (docs.map ParameterDoc.name)
              names) ∧
      (parameters.length < docs.length →
        ∃ names,
          countFindings parameters docs = [⟨.unused names, none⟩] ∧
            Surplus (docs.map ParameterDoc.name) (parameters.map Parameter.name)
              names) := by
  constructor
  · intro fewer
    refine ⟨_, by simp only [countFindings, if_pos fewer], surplus_absent ?_⟩
    simpa using fewer
  · intro more
    refine
      ⟨_, by simp only [countFindings, if_neg (Nat.lt_asymm more), if_pos more],
        surplus_absent ?_⟩
    simpa using more

/-- Two parameters of one name that is documented once are a finding about nobody. -/
theorem countFindings_of_lengths_repeated :
    countFindings
        [⟨"a", "", .mandatory, "", "undef"⟩, ⟨"a", "", .mandatory, "", "undef"⟩]
        [{ name := "a" }] =
      [⟨.missing [], none⟩] ∧
    ¬ ["a", "a"].Nodup := by
  obtain ⟨ofFewer, _⟩ :=
    countFindings_of_lengths
      [⟨"a", "", .mandatory, "", "undef"⟩, ⟨"a", "", .mandatory, "", "undef"⟩]
      [{ name := "a" }]
  obtain ⟨names, isFinding, surplus⟩ := ofFewer (by decide)
  have nobody : names = [] := surplus.eq_absent
  rw [isFinding, nobody]
  exact ⟨rfl, surplus.repeats nobody⟩

end DocAudit.Agreement
