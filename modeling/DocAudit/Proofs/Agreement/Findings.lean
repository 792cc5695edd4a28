import DocAudit.Agreement

namespace DocAudit.Agreement

/-!
# When documentation agrees

A comparison finds nothing exactly when the two lists of names are the same. The
counts come first; with equal counts the walk over both lists finds the first
place where the names differ. Either way there is one finding at most, and what is
out of order is an entry of the documentation.
-/

theorem countFindings_eq_nil_iff
    (parameters : List Parameter)
    (docs : List ParameterDoc) :
    countFindings parameters docs = [] ↔ parameters.length = docs.length := by
  unfold countFindings
  dsimp only
  split
  · rename_i fewer
    simp only [List.cons_ne_nil, false_iff]
    omega
  · split
    · rename_i more
      simp only [List.cons_ne_nil, false_iff]
      omega
    · simp only [true_iff]
      omega

theorem orderFindings_eq_nil_iff
    {parameters : List Parameter}
    {docs : List ParameterDoc}
    (sameLength : parameters.length = docs.length) :
    orderFindings parameters docs = [] ↔
      parameters.map Parameter.name = docs.map ParameterDoc.name := by
  induction parameters generalizing docs with
  | nil =>
      have noDoc : docs = [] := List.length_eq_zero_iff.mp sameLength.symm
      subst docs
      simp [orderFindings]
  | cons parameter parameters inductionHypothesis =>
      cases docs with
      | nil => cases sameLength
      | cons doc docs =>
          by_cases sameName : parameter.name = doc.name
          · have restLength : parameters.length = docs.length := by
              simpa using sameLength
            simp [orderFindings, sameName, inductionHypothesis restLength]
          · simp [orderFindings, sameName]

/-- A comparison finds nothing exactly when both lists have the same names in order. -/
theorem findings_eq_nil_iff
    (parameters : List Parameter)
    (docs : List ParameterDoc) :
    findings parameters docs = [] ↔
      parameters.map Parameter.name = docs.map ParameterDoc.name := by
  unfold findings
  split
  · rename_i sameCount
    exact
      orderFindings_eq_nil_iff
        ((countFindings_eq_nil_iff parameters docs).mp sameCount)
  · rename_i someFinding
    constructor
    · intro noFinding
      exact absurd noFinding someFinding
    · intro sameNames
      have sameLength := congrArg List.length sameNames
      simp only [List.length_map] at sameLength
      exact
        absurd
          ((countFindings_eq_nil_iff parameters docs).mpr sameLength)
          someFinding

/-- The findings that a comparison with the entries of a documentation can make. -/
inductive Raised (docs : List ParameterDoc) : Finding → Prop where
  | missing
      (names : List String) :
      Raised docs ⟨.missing names, none⟩
  | unused
      (names : List String) :
      Raised docs ⟨.unused names, none⟩
  | misordered
      {doc : ParameterDoc} :
      doc ∈ docs →
      Raised docs ⟨.misordered doc.name, some ⟨doc.line, 1⟩⟩

theorem orderFindings_cases
    (parameters : List Parameter)
    (docs : List ParameterDoc) :
    orderFindings parameters docs = [] ∨
      ∃ doc ∈ docs,
        orderFindings parameters docs =
          [⟨.misordered doc.name, some ⟨doc.line, 1⟩⟩] := by
  induction parameters generalizing docs with
  | nil => exact .inl rfl
  | cons parameter parameters inductionHypothesis =>
      cases docs with
      | nil => exact .inl rfl
      | cons doc docs =>
          by_cases sameName : parameter.name = doc.name
          · simp only [orderFindings, if_pos sameName]
            exact (inductionHypothesis docs).imp_right fun ⟨other, behind, isOther⟩ =>
              ⟨other, List.mem_cons_of_mem doc behind, isOther⟩
          · simp only [orderFindings, if_neg sameName]
            exact .inr ⟨doc, List.mem_cons_self, rfl⟩

/-- Fewer entries than parameters are one finding about the names without entry. -/
theorem findings_of_fewer
    {parameters : List Parameter}
    {docs : List ParameterDoc}
    (fewer : docs.length < parameters.length) :
    findings parameters docs =
      [⟨.missing
          (absent (parameters.map Parameter.name) (docs.map ParameterDoc.name)),
        none⟩] := by
  simp only [findings, countFindings, if_pos fewer]

/-- More entries than parameters are one finding about the names without parameter. -/
theorem findings_of_more
    {parameters : List Parameter}
    {docs : List ParameterDoc}
    (more : parameters.length < docs.length) :
    findings parameters docs =
      [⟨.unused
          (absent (docs.map ParameterDoc.name) (parameters.map Parameter.name)),
        none⟩] := by
  simp only [findings, countFindings, if_neg (Nat.lt_asymm more), if_pos more]

/-- With equal counts the order decides. -/
theorem findings_of_sameLength
    {parameters : List Parameter}
    {docs : List ParameterDoc}
    (sameLength : parameters.length = docs.length) :
    findings parameters docs = orderFindings parameters docs := by
  have noCount := (countFindings_eq_nil_iff parameters docs).mpr sameLength
  simp only [findings, noCount]

/-- A comparison makes one finding at most. -/
theorem findings_cases
    (parameters : List Parameter)
    (docs : List ParameterDoc) :
    findings parameters docs = [] ∨
      ∃ finding, findings parameters docs = [finding] ∧ Raised docs finding := by
  rcases Nat.lt_trichotomy docs.length parameters.length with fewer | same | more
  · exact .inr ⟨_, findings_of_fewer fewer, .missing _⟩
  · rw [findings_of_sameLength same.symm]
    refine (orderFindings_cases parameters docs).imp_right ?_
    rintro ⟨doc, member, isOrder⟩
    exact ⟨_, isOrder, .misordered member⟩
  · exact .inr ⟨_, findings_of_more more, .unused _⟩

end DocAudit.Agreement
