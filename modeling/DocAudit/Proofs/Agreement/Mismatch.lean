import DocAudit.Proofs.Agreement.Findings

namespace DocAudit.Agreement

/-!
# What a comparison finds

A comparison has one finding unless the names of both lists are the same. Which
one it is depends on the lengths first: only lists of the same length are walked
along, up to the first place where the names differ. The main statement is
`findings_of_names`.
-/

/-- The first place where the names of two lists differ, and the entry that stands there. -/
structure FirstMismatch
    (parameters : List Parameter)
    (docs : List ParameterDoc)
    (index : Nat)
    (doc : ParameterDoc) : Prop where
  documented : docs[index]? = some doc
  differ :
    ∃ parameter, parameters[index]? = some parameter ∧ parameter.name ≠ doc.name
  agree :
    ∀ earlier < index,
      (parameters.map Parameter.name)[earlier]? = (docs.map ParameterDoc.name)[earlier]?

/-- A mismatch behind an entry with the name of its parameter is one place further on. -/
theorem FirstMismatch.cons
    {parameter : Parameter}
    {parameters : List Parameter}
    {first doc : ParameterDoc}
    {docs : List ParameterDoc}
    {index : Nat}
    (mismatch : FirstMismatch parameters docs index doc)
    (sameName : parameter.name = first.name) :
    FirstMismatch (parameter :: parameters) (first :: docs) (index + 1) doc where
  documented := mismatch.documented
  differ := mismatch.differ
  agree := by
    intro earlier before
    cases earlier with
    | zero => simp [sameName]
    | succ earlier => exact mismatch.agree earlier (Nat.lt_of_succ_lt_succ before)

/-- The walk along both lists stops at the first mismatch. -/
theorem exists_firstMismatch
    {parameters : List Parameter}
    {docs : List ParameterDoc}
    (sameLength : parameters.length = docs.length)
    (namesDiffer : parameters.map Parameter.name ≠ docs.map ParameterDoc.name) :
    ∃ index doc,
      FirstMismatch parameters docs index doc ∧
        orderFindings parameters docs =
          [⟨.misordered doc.name, some ⟨doc.line, 1⟩⟩] := by
  induction parameters generalizing docs with
  | nil =>
      have noDoc : docs = [] := List.length_eq_zero_iff.mp sameLength.symm
      exact (namesDiffer (by rw [noDoc]; rfl)).elim
  | cons parameter parameters inductionHypothesis =>
      cases docs with
      | nil => cases sameLength
      | cons doc docs =>
          by_cases sameName : parameter.name = doc.name
          · have restLength : parameters.length = docs.length := Nat.succ.inj sameLength
            have restDiffers :
                parameters.map Parameter.name ≠ docs.map ParameterDoc.name := by
              intro restSame
              apply namesDiffer
              rw [List.map_cons, List.map_cons, sameName, restSame]
            obtain ⟨index, other, mismatch, isOrder⟩ :=
              inductionHypothesis restLength restDiffers
            refine ⟨index + 1, other, mismatch.cons sameName, ?_⟩
            rw [orderFindings, if_pos sameName]
            exact isOrder
          · refine ⟨0, doc, ⟨rfl, ⟨parameter, rfl, sameName⟩, ?_⟩, ?_⟩
            · intro earlier before
              cases before
            · rw [orderFindings, if_neg sameName]

/--
A comparison finds nothing exactly when both lists have the same names in order.
Otherwise it has one finding: that documentation is missing if there are fewer
entries than parameters, that some is unused if there are more, both with the names
that only the longer list has, and else that an entry is out of order, which is the
first one whose name is not the one of the parameter in its place.
-/
theorem findings_of_names
    (parameters : List Parameter)
    (docs : List ParameterDoc) :
    (findings parameters docs = [] ↔
        parameters.map Parameter.name = docs.map ParameterDoc.name) ∧
      (docs.length < parameters.length →
          findings parameters docs =
            [⟨.missing
                (absent (parameters.map Parameter.name) (docs.map ParameterDoc.name)),
              none⟩]) ∧
        (parameters.length < docs.length →
            findings parameters docs =
              [⟨.unused
                  (absent (docs.map ParameterDoc.name) (parameters.map Parameter.name)),
                none⟩]) ∧
          (parameters.length = docs.length →
            parameters.map Parameter.name ≠ docs.map ParameterDoc.name →
              ∃ index doc,
                FirstMismatch parameters docs index doc ∧
                  findings parameters docs =
                    [⟨.misordered doc.name, some ⟨doc.line, 1⟩⟩]) := by
  refine ⟨findings_eq_nil_iff parameters docs, findings_of_fewer, findings_of_more, ?_⟩
  intro sameLength namesDiffer
  rw [findings_of_sameLength sameLength]
  exact exists_firstMismatch sameLength namesDiffer

/-- An entry that is documented twice is out of order where it stands again. -/
example :
    findings [⟨"a", "", .mandatory, "", "undef"⟩, ⟨"b", "", .mandatory, "", "undef"⟩]
        [{ name := "a", line := 1 }, { name := "a", line := 3 }] =
      [⟨.misordered "a", some ⟨3, 1⟩⟩] :=
  rfl

end DocAudit.Agreement
