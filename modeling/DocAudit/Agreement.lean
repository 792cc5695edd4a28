import DocAudit.Finding
import DocAudit.Parameter
import DocAudit.ParameterDoc

namespace DocAudit.Agreement

/-!
# Agreement of parameters and documentation

The documentation agrees with a parameter list when it has the same names in the
same order. Lists of different lengths are reported by the names that the longer
one has alone; lists of the same length by the first entry that is out of place.
-/

/-- The names of one list that another list does not have, in order. -/
def absent (names present : List String) : List String :=
  names.filter fun name => !present.contains name

/-- The finding that one list is longer than the other. -/
def countFindings
    (parameters : List Parameter)
    (docs : List ParameterDoc) :
    List Finding :=
  let declared := parameters.map Parameter.name
  let documented := docs.map ParameterDoc.name
  if docs.length < parameters.length then
    [⟨.missing (absent declared documented), none⟩]
  else if parameters.length < docs.length then
    [⟨.unused (absent documented declared), none⟩]
  else
    []

/-- The finding that an entry is not the one of the parameter in its place. -/
def orderFindings : List Parameter → List ParameterDoc → List Finding
  | parameter :: parameters, doc :: docs =>
      if parameter.name = doc.name then
        orderFindings parameters docs
      else
        [⟨.misordered doc.name, some ⟨doc.line, 1⟩⟩]
  | _, _ => []

/-- The findings on the counts or, if the counts agree, on the order. -/
def findings
    (parameters : List Parameter)
    (docs : List ParameterDoc) :
    List Finding :=
  match countFindings parameters docs with
  | [] => orderFindings parameters docs
  | found => found

end DocAudit.Agreement
