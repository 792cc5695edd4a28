import Mathlib.Data.List.DropRight
import DocAudit.Declaration

namespace DocAudit.Declaration

/-!
# The block above a declaration

The walk upwards from a declaration stops at the first token that is no comment
and no line end, so it finds the run of such tokens that ends there, as a whole. It
looks at no place outside the file unless it starts at one. The main statement is
`commentsAbove_find_block`.
-/

/-! The closing run, token by token from the end. -/

theorem closingBlock_concat_of_blockPart
    {token : Token}
    (isBlockPart : token.isBlockPart = true)
    (above : List Token) :
    closingBlock (above ++ [token]) = closingBlock above ++ [token] :=
  List.rtakeWhile_concat_pos _ _ _ isBlockPart

theorem closingBlock_concat_of_other
    {token : Token}
    (isOther : ¬ token.isBlockPart = true)
    (above : List Token) :
    closingBlock (above ++ [token]) = [] :=
  List.rtakeWhile_concat_neg _ _ _ isOther

/-- A run of comments and line ends goes on above as far as there are such tokens. -/
theorem closingBlock_append_block
    {block : List Token}
    (isBlock : ∀ token ∈ block, token.isBlockPart = true)
    (above : List Token) :
    closingBlock (above ++ block) = closingBlock above ++ block := by
  induction block using List.reverseRecOn with
  | nil => simp
  | append_singleton block token inductionHypothesis =>
      obtain ⟨isBlockAbove, atEnd⟩ := List.forall_mem_append.mp isBlock
      have isBlockPart : token.isBlockPart = true := atEnd token (by simp)
      rw [← List.append_assoc, closingBlock_concat_of_blockPart isBlockPart,
        inductionHypothesis isBlockAbove, List.append_assoc]

/-- A run of comments and line ends behind another token, or behind nothing, is found. -/
theorem closingBlock_append
    {above block : List Token}
    (isBlock : ∀ token ∈ block, token.isBlockPart = true)
    (edge : ∀ token ∈ above.getLast?, token.isBlockPart = false) :
    closingBlock (above ++ block) = block := by
  have stops : closingBlock above = [] := by
    apply List.rtakeWhile_eq_nil_iff.mpr
    intro nonempty
    simp [edge _ (List.getLast?_eq_getLast_of_ne_nil nonempty)]
  rw [closingBlock_append_block isBlock, stops, List.nil_append]

/-- Without comments at the end of what stands above, a block begins below at the earliest. -/
theorem filter_closingBlock_append
    {above : List Token}
    (bare : ∀ token ∈ closingBlock above, token.isComment = false)
    (tokens : List Token) :
    (closingBlock (above ++ tokens)).filter Token.isComment =
      (closingBlock tokens).filter Token.isComment := by
  have noComment : (closingBlock above).filter Token.isComment = [] := by
    simpa using bare
  unfold closingBlock
  rw [List.reverse_append, List.takeWhile_append]
  split
  · rename_i whole
    -- The walk passes all tokens, so it goes on above them and finds no comment there.
    have isWhole : tokens.reverse.takeWhile Token.isBlockPart = tokens.reverse :=
      (List.takeWhile_prefix Token.isBlockPart).eq_of_length whole
    rw [isWhole, List.reverse_append, List.filter_append]
    change (closingBlock above).filter Token.isComment ++ _ = _
    rw [noComment, List.nil_append]
  · rfl

/-! The walk upwards finds the closing run of what stands above its start. -/

section Walks

variable
  {tokens : List Token}
  {place : Nat}
  {start : Int}

/-- Inside the file the walk collects the comments of the run that ends there, from below. -/
theorem walkUp_of_le
    (inside : place ≤ tokens.length)
    (collected : List Token) :
    walkUp tokens place collected =
      some
        (collected ++
          ((closingBlock (tokens.take place)).filter Token.isComment).reverse) := by
  induction place generalizing collected with
  | zero => simp [walkUp, closingBlock]
  | succ place inductionHypothesis =>
      have reached : tokens[place]? = some tokens[place] :=
        List.getElem?_eq_getElem inside
      have lowest : tokens.take (place + 1) = tokens.take place ++ [tokens[place]] :=
        List.take_succ_eq_append_getElem inside
      rw [walkUp, reached, lowest]
      by_cases isBlockPart : tokens[place].isBlockPart = true
      · simp only [isBlockPart, if_true]
        rw [inductionHypothesis (Nat.le_of_lt inside),
          closingBlock_concat_of_blockPart isBlockPart]
        by_cases isComment : tokens[place].isComment = true <;>
          simp [isComment]
      · rw [closingBlock_concat_of_other isBlockPart]
        simp [isBlockPart]

/-- Behind the end of the file the walk cannot start. -/
theorem walkUp_of_lt
    (behind : tokens.length < place)
    (collected : List Token) :
    walkUp tokens place collected = none := by
  cases place with
  | zero => cases behind
  | succ place =>
      have nothing : tokens[place]? = none :=
        List.getElem?_eq_none (Nat.le_of_lt_succ behind)
      simp only [walkUp, nothing]

/-- Where a place is not behind the end of the file, the run that ends there is found. -/
theorem commentsAbove_of_le
    (notBehind : start ≤ tokens.length) :
    commentsAbove tokens start =
      .ok ((closingBlock (tokens.take start.toNat)).filter Token.isComment) := by
  simp only [commentsAbove, walkUp_of_le (Int.toNat_le.mpr notBehind), List.nil_append,
    List.reverse_reverse]

theorem commentsAbove_of_lt
    (behind : tokens.length < start) :
    commentsAbove tokens start = .error (.startOutOfRange start) := by
  simp only [commentsAbove, walkUp_of_lt (Int.lt_toNat.mpr behind)]

end Walks

/-- The comments above a declaration are those of the run that ends in front of it. -/
theorem commentsAbove_of_append
    {tokens above block : List Token}
    {start : Int}
    (placed : 0 ≤ start ∧ start ≤ tokens.length)
    (inFront : tokens.take start.toNat = above ++ block)
    (isBlock : ∀ token ∈ block, token.isBlockPart = true)
    (edge : ∀ token ∈ above.getLast?, token.isBlockPart = false) :
    commentsAbove tokens start = .ok (block.filter Token.isComment) := by
  rw [commentsAbove_of_le placed.2, inFront, closingBlock_append isBlock edge]

/-- What is found above a declaration are comments of the block that ends there. -/
theorem mem_closingBlock_of_commentsAbove
    {tokens comments : List Token}
    {start : Int}
    {comment : Token}
    (found : commentsAbove tokens start = .ok comments)
    (member : comment ∈ comments) :
    comment ∈ closingBlock (tokens.take start.toNat) ∧ comment.isComment = true := by
  rcases Int.lt_or_le tokens.length start with behind | notBehind
  · rw [commentsAbove_of_lt behind] at found
    cases found
  · rw [commentsAbove_of_le notBehind] at found
    cases found
    exact List.mem_filter.mp member

/-- Only behind the end of the file there is no place to look above. -/
theorem commentsAbove_eq_error_iff
    {tokens : List Token}
    {start : Int}
    {fault : Fault} :
    commentsAbove tokens start = .error fault ↔
      tokens.length < start ∧ fault = .startOutOfRange start := by
  rcases Int.lt_or_le tokens.length start with behind | notBehind
  · rw [commentsAbove_of_lt behind, Except.error.injEq, eq_comm, and_iff_right behind]
  · simp [commentsAbove_of_le notBehind, Int.not_lt.mpr notBehind]

/--
A run of comments and line ends at the end of a token list that every other such run
is a part of.
-/
structure LongestRun (tokens block : List Token) : Prop where
  atEnd : block <:+ tokens
  blockParts : ∀ token ∈ block, token.kind = .comment ∨ token.kind = .newline
  longest :
    ∀ other,
      other <:+ tokens →
        (∀ token ∈ other, token.kind = .comment ∨ token.kind = .newline) →
          other <:+ block

theorem longestRun_closingBlock (tokens : List Token) :
    LongestRun tokens (closingBlock tokens) where
  atEnd := List.rtakeWhile_suffix _ _
  blockParts := by
    intro token member
    exact Token.isBlockPart_iff.mp (List.mem_rtakeWhile_imp member)
  longest := by
    rintro other ⟨above, rfl⟩ blockParts
    rw [closingBlock_append_block fun token member =>
      Token.isBlockPart_iff.mpr (blockParts token member)]
    exact List.suffix_append _ _

/--
Only a place behind the end of the file has no answer, and that is what is reported.
At the first token, and in front of it, there is nothing above. For any other place
the answer is the comments, in order, of the longest run of comments and line ends
that ends in front of the place.
-/
theorem commentsAbove_find_block
    (tokens : List Token)
    (start : Int) :
    (∀ fault,
        commentsAbove tokens start = .error fault ↔
          tokens.length < start ∧ fault = .startOutOfRange start) ∧
      (start ≤ 0 → commentsAbove tokens start = .ok []) ∧
        (start ≤ tokens.length →
          ∃ block,
            LongestRun (tokens.take start.toNat) block ∧
              commentsAbove tokens start = .ok (block.filter Token.isComment)) := by
  refine ⟨fun fault => commentsAbove_eq_error_iff, ?_, ?_⟩
  · intro notInside
    have notBehind : start ≤ tokens.length := by omega
    rw [commentsAbove_of_le notBehind, Int.toNat_of_nonpos notInside]
    rfl
  · intro notBehind
    exact ⟨_, longestRun_closingBlock _, commentsAbove_of_le notBehind⟩

end DocAudit.Declaration
