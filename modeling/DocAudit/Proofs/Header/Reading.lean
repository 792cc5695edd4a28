import DocAudit.Proofs.Header.RoundTrip

namespace DocAudit.Header

/-!
# Texts that announce headers

A text announces a header when it is written like one: the marker, and behind it the
words of the header with their brackets and colons. No text announces two headers,
although the type of an option may hold the brackets, spaces and colons that stand
around it. A comment is read as the header that its text announces, and is malformed
when its text announces none. The main statement is `ofComment_eq_announced`.
-/

/-- A text that is written like a header. -/
inductive Announces (text : String) : Header → Prop where
  | param
      {name : String} :
      text = "@param " ++ name →
      IsWord name.toList →
      Announces text (.param name)
  | option
      {hash valueType name : String} :
      text = "@option " ++ hash ++ " [" ++ valueType ++ "] :" ++ name →
      IsWord hash.toList →
      valueType ≠ "" →
      '\n' ∉ valueType.toList →
      IsWord name.toList →
      Announces text (.option hash valueType name)

variable
  {text : String}
  {header other : Header}

theorem toList_paramText (name : String) :
    ("@param " ++ name).toList = written (.param name) := by
  rw [String.toList_append]
  rfl

theorem toList_optionText (hash valueType name : String) :
    ("@option " ++ hash ++ " [" ++ valueType ++ "] :" ++ name).toList =
      written (.option hash valueType name) := by
  have opening : "@option ".toList = optionMarker ++ [' '] := rfl
  have middle : " [".toList = [' ', '['] := rfl
  have ending : "] :".toList = [']', ' ', ':'] := rfl
  simp only [String.toList_append, opening, middle, ending, written, List.append_assoc,
    List.cons_append, List.nil_append]

/-- A text announces the headers that are well formed and write it. -/
theorem announces_iff_written :
    Announces text header ↔ header.WellFormed ∧ header.written = text.toList := by
  cases header with
  | param name =>
      rw [← toList_paramText, String.toList_inj]
      constructor
      · intro announces
        cases announces with
        | param shape isWord => exact ⟨isWord, shape.symm⟩
      · rintro ⟨isWord, shape⟩
        exact .param shape.symm isWord
  | option hash valueType name =>
      rw [← toList_optionText, String.toList_inj]
      have nonempty_iff : valueType.toList ≠ [] ↔ valueType ≠ "" := by simp
      constructor
      · intro announces
        cases announces with
        | option shape hashWord nonempty oneLine nameWord =>
            exact
              ⟨⟨hashWord, ⟨nonempty_iff.mpr nonempty, oneLine⟩, nameWord⟩, shape.symm⟩
      · rintro ⟨⟨hashWord, ⟨nonempty, oneLine⟩, nameWord⟩, shape⟩
        exact .option shape.symm hashWord (nonempty_iff.mp nonempty) oneLine nameWord

/-- A text is read as the header that it announces. -/
theorem ofText?_eq_some_iff_announces :
    ofText? text.toList = some header ↔ Announces text header := by
  rw [ofText?_eq_some_iff, announces_iff_written]

/-- No text announces two headers: reading finds either of them, and only one. -/
theorem Announces.unique
    (announces : Announces text header)
    (alsoAnnounces : Announces text other) :
    other = header := by
  rw [← ofText?_eq_some_iff_announces] at announces alsoAnnounces
  exact Option.some.inj (alsoAnnounces.symm.trans announces)

/-- Where no header is read from a text, it announces none. -/
theorem ofText?_eq_none_iff :
    ofText? text.toList = none ↔ ∀ header, ¬ Announces text header := by
  simp only [Option.eq_none_iff_forall_ne_some, ne_eq, ofText?_eq_some_iff_announces]

theorem core_eq_toList_trimmed (comment : Token) :
    comment.core = comment.trimmed.toList := by
  simp [Token.trimmed]

theorem ofComment?_eq_some_iff_announces
    {comment : Token} :
    ofComment? comment = some header ↔ Announces comment.trimmed header := by
  rw [← ofText?_eq_some_iff_announces, ofComment?, core_eq_toList_trimmed]

/--
A comment is read as a header exactly when its text without blank ends announces that
header. It is malformed exactly when its text announces none, and no text announces
two headers.
-/
theorem ofComment_eq_announced (comment : Token) :
    (∀ header,
        ofComment comment = .ok header ↔ Announces comment.trimmed header) ∧
      (∀ error,
        ofComment comment = .error error ↔
          error = .malformedHeader comment ∧
            ∀ header, ¬ Announces comment.trimmed header) ∧
        ∀ text header other,
          Announces text header → Announces text other → other = header := by
  have read : ofComment? comment = ofText? comment.trimmed.toList := by
    rw [ofComment?, core_eq_toList_trimmed]
  refine ⟨?_, ?_, fun text header other => Announces.unique⟩
  · intro header
    rw [← ofText?_eq_some_iff_announces, ← read, ofComment]
    cases ofComment? comment <;> simp
  · intro error
    rw [← ofText?_eq_none_iff, ← read, ofComment]
    cases ofComment? comment <;> simp [eq_comm]

/-- The first space ends the hash and the last one starts the name, so the type is the rest. -/
example :
    ofComment ⟨.comment, " @option h [a] :b [c] :d ", .first⟩ =
      .ok (.option "h" "a] :b [c" "d") := by
  decide +kernel

end DocAudit.Header
