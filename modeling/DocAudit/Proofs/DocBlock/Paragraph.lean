import DocAudit.DocBlock.Draft
import DocAudit.Proofs.Text.Trim
import DocAudit.Token

namespace DocAudit.DocBlock

/-!
# Descriptions

The lines of a description are joined with single spaces. A description only grows at
its end when a line is added. Lines that are not empty and have no blank ends make a
description of which the same is true.
-/

theorem paragraph_nil : paragraph [] = "" :=
  String.intercalate_nil

theorem paragraph_singleton (text : String) : paragraph [text] = text :=
  String.intercalate_singleton

/-- Two parts of a description are joined with a space. -/
theorem paragraph_append
    {front back : List String}
    (someFront : front ≠ [])
    (someBack : back ≠ []) :
    paragraph (front ++ back) = paragraph front ++ " " ++ paragraph back :=
  String.intercalate_append_of_ne_nil someFront someBack

/-- A further line is joined to a description with a space. -/
theorem paragraph_concat
    {front : List String}
    (someFront : front ≠ [])
    (text : String) :
    paragraph (front ++ [text]) = paragraph front ++ " " ++ text := by
  rw [paragraph_append someFront (List.cons_ne_nil _ _), paragraph_singleton]

/-- A description is the beginning of the one with more lines. -/
theorem paragraph_prefix_append (front back : List String) :
    (paragraph front).toList <+: (paragraph (front ++ back)).toList := by
  by_cases noFront : front = []
  · simp [noFront, paragraph_nil]
  by_cases noBack : back = []
  · simp [noBack]
  rw [paragraph_append noFront noBack, String.append_assoc, String.toList_append]
  exact List.prefix_append _ _

/-- A text that is not empty and has no blank character at an end. -/
structure Solid (text : String) : Prop where
  nonempty : text ≠ ""
  unpadded : Text.Unpadded text.toList

/-- What trimming leaves is solid, if it leaves anything. -/
theorem solid_trimmed
    {comment : Token}
    (nonblank : comment.core ≠ []) :
    Solid comment.trimmed where
  nonempty := by
    intro empty
    exact nonblank (String.ofList_eq_empty_iff.mp empty)
  unpadded := by
    rw [Token.trimmed, String.toList_ofList]
    exact Text.unpadded_trim comment.text.toList

/-- Two solid texts are solid with any text between them. -/
theorem Solid.join
    {first second : String}
    (solid : Solid first)
    (alsoSolid : Solid second)
    (between : String) :
    Solid (first ++ between ++ second) := by
  have someFirst : first.toList ≠ [] := by
    simpa using solid.nonempty
  have someSecond : second.toList ≠ [] := by
    simpa using alsoSolid.nonempty
  have joined :
      (first ++ between ++ second).toList =
        first.toList ++ (between.toList ++ second.toList) := by
    simp
  refine ⟨?_, ?_, ?_⟩
  · simp [solid.nonempty]
  · rw [joined, List.head?_append_of_ne_nil _ someFirst]
    exact solid.unpadded.start
  · rw [joined, ← List.append_assoc, List.getLast?_append_of_ne_nil _ someSecond]
    exact alsoSolid.unpadded.stop

/-- A line that is added to a solid description, or to none, leaves a solid one. -/
theorem solid_paragraph_concat
    {lines : List String}
    {text : String}
    (solidLine : Solid text)
    (solidFront : lines = [] ∨ Solid (paragraph lines)) :
    Solid (paragraph (lines ++ [text])) := by
  by_cases isFirst : lines = []
  · rw [isFirst, List.nil_append, paragraph_singleton]
    exact solidLine
  · rw [paragraph_concat isFirst]
    exact (solidFront.resolve_left isFirst).join solidLine " "

end DocAudit.DocBlock
