import Mathlib.Data.List.Basic
import DocAudit.Header

namespace DocAudit.Header

/-!
# Reading headers back

A text is read as a header exactly when it is what the header writes. For an
option header the reader works from both ends, and the type in the middle may
hold brackets, spaces and colons. The main statement is
`ofText?_eq_some_iff`.
-/

theorem isWordChar_of_mem
    {text : List Char}
    (noSpace : ' ' ∉ text) :
    ∀ char ∈ text, isWordChar char = true := by
  intro char member
  have different : char ≠ ' ' := by
    rintro rfl
    exact noSpace member
  simpa [isWordChar] using different

theorem space_not_mem_takeWhile (text : List Char) :
    ' ' ∉ text.takeWhile isWordChar := by
  intro member
  have allWord := List.all_eq_true.mp (List.all_takeWhile (l := text)) ' ' member
  simp [isWordChar] at allWord

/-- What follows the marker of a parameter header is its name. -/
theorem param?_eq_some_iff
    {text : List Char}
    {header : Header} :
    param? text = some header ↔
      ∃ name, header = .param name ∧ IsWord name.toList ∧ name.toList = text := by
  unfold param?
  constructor
  · intro read
    split at read
    · rename_i isWord
      cases read
      exact ⟨String.ofList text, rfl, by simpa using isWord, by simp⟩
    · cases read
  · rintro ⟨name, rfl, isWord, rfl⟩
    simp [isWord]

theorem span_word
    {word : List Char}
    (rest : List Char)
    (noSpace : ' ' ∉ word) :
    (word ++ ' ' :: rest).takeWhile isWordChar = word ∧
      (word ++ ' ' :: rest).dropWhile isWordChar = ' ' :: rest := by
  have allWord := isWordChar_of_mem noSpace
  rw [List.takeWhile_append_of_pos allWord, List.dropWhile_append_of_pos allWord]
  simp [isWordChar]

/-- What an option header writes behind its marker is read back. -/
theorem option?_written
    {hash valueType name : List Char}
    (hashWord : IsWord hash)
    (typeLine : valueType ≠ [] ∧ '\n' ∉ valueType)
    (nameWord : IsWord name) :
    option? (hash ++ ' ' :: '[' :: (valueType ++ ']' :: ' ' :: ':' :: name)) =
      some
        (.option (String.ofList hash) (String.ofList valueType)
          (String.ofList name)) := by
  obtain ⟨hashTaken, hashDropped⟩ :=
    span_word ('[' :: (valueType ++ ']' :: ' ' :: ':' :: name)) hashWord.2
  have endingShape :
      (valueType ++ ']' :: ' ' :: ':' :: name).reverse =
        (name.reverse ++ [':']) ++ ' ' :: ']' :: valueType.reverse := by
    simp
  have noSpace : ' ' ∉ name.reverse ++ [':'] := by
    simpa using nameWord.2
  obtain ⟨nameTaken, nameDropped⟩ :=
    span_word (']' :: valueType.reverse) noSpace
  unfold option?
  simp only [hashTaken, hashDropped, endingShape, nameTaken, nameDropped]
  simp [hashWord.1, typeLine, nameWord.1]

/-- What is read behind the marker of an option header is what the header writes. -/
theorem option?_eq_some
    {text : List Char}
    {header : Header}
    (read : option? text = some header) :
    ∃ hash valueType name,
      header = .option hash valueType name ∧
        header.WellFormed ∧
          hash.toList ++
              ' ' :: '[' ::
                (valueType.toList ++ ']' :: ' ' :: ':' :: name.toList) =
            text := by
  have textShape := List.takeWhile_append_dropWhile (p := isWordChar) (l := text)
  have hashNoSpace := space_not_mem_takeWhile text
  unfold option? at read
  split at read
  · rename_i rest dropped
    have endShape :=
      List.takeWhile_append_dropWhile (p := isWordChar) (l := rest.reverse)
    have nameNoSpace := space_not_mem_takeWhile rest.reverse
    dsimp only at read
    split at read
    · rename_i name valueType taken droppedEnd
      split at read
      · rename_i conditions
        obtain ⟨hashNonempty, typeNonempty, typeLine, nameNonempty⟩ := conditions
        cases read
        have takenShape :
            rest.reverse.takeWhile isWordChar = name.reverse ++ [':'] := by
          rw [← List.reverse_reverse (rest.reverse.takeWhile isWordChar), taken]
          simp
        rw [takenShape] at nameNoSpace
        have restShape :
            rest = valueType.reverse ++ ']' :: ' ' :: ':' :: name := by
          rw [← List.reverse_reverse rest, ← endShape, takenShape, droppedEnd]
          simp
        refine ⟨_, _, _, rfl, ?_, ?_⟩
        · simp only [WellFormed, IsWord, String.toList_ofList]
          exact
            ⟨⟨hashNonempty, hashNoSpace⟩,
              ⟨by simpa using typeNonempty, by simpa using typeLine⟩,
              nameNonempty, by simpa using nameNoSpace⟩
        · simp only [String.toList_ofList]
          rw [← restShape, ← dropped, textShape]
      · cases read
    · cases read
  · cases read

/-- A text is read as a header exactly when the header writes it. -/
theorem ofText?_eq_some_iff
    {text : List Char}
    {header : Header} :
    ofText? text = some header ↔ header.WellFormed ∧ header.written = text := by
  unfold ofText?
  constructor
  · intro read
    split at read
    · rename_i rest isParam
      obtain ⟨name, rfl, isWord, rfl⟩ := param?_eq_some_iff.mp read
      refine ⟨isWord, ?_⟩
      rw [← List.isPrefixOf?_eq_some_iff_append_eq.mp isParam]
      simp [written]
    · split at read
      · rename_i rest isOption
        obtain ⟨hash, valueType, name, rfl, wellFormed, rfl⟩ := option?_eq_some read
        refine ⟨wellFormed, ?_⟩
        rw [← List.isPrefixOf?_eq_some_iff_append_eq.mp isOption]
        simp [written]
      · cases read
  · rintro ⟨wellFormed, rfl⟩
    cases header with
    | param name =>
        have isParam :
            (paramMarker ++ [' ']).isPrefixOf? (written (.param name)) =
              some name.toList := by
          rw [List.isPrefixOf?_eq_some_iff_append_eq]
          simp [written]
        simp only [isParam]
        exact param?_eq_some_iff.mpr ⟨name, rfl, wellFormed, rfl⟩
    | option hash valueType name =>
        have notParam :
            (paramMarker ++ [' ']).isPrefixOf?
                (written (.option hash valueType name)) =
              none :=
          rfl
        have isOption :
            (optionMarker ++ [' ']).isPrefixOf?
                (written (.option hash valueType name)) =
              some
                (hash.toList ++
                  ' ' :: '[' ::
                    (valueType.toList ++ ']' :: ' ' :: ':' :: name.toList)) := by
          rw [List.isPrefixOf?_eq_some_iff_append_eq]
          simp [written]
        obtain ⟨hashWord, typeLine, nameWord⟩ := wellFormed
        simp only [notParam, isOption]
        rw [option?_written hashWord typeLine nameWord]
        simp

end DocAudit.Header
