import LedSketch.Proofs.Sketch.Alignment
import LedSketch.Proofs.Sketch.Stripping

namespace LedSketch.Sketch

/-!
# The text of the comments

Stripping leaves nothing of a comment but its line ends, so what else stands in the comments
of a sketch has no part in its script.
-/

open Script.Lexeme

/--
Two sketches that are the same outside of their comments.  Every literal is closed on its
line, every comment ends where its counterpart does and has as many line ends.
-/
inductive DifferInComments : List Char → List Char → Prop where
  | finish : DifferInComments [] []
  | code
      {c : Char}
      {first second : List Char}
      (notQuote : c ≠ '"' ∧ c ≠ '\'')
      (noComment : opensComment c first = false)
      (onward : DifferInComments first second) :
      DifferInComments (c :: first) (c :: second)
  | literal
      {quote : Char}
      {inner content first second : List Char}
      (isQuote : quote = '"' ∨ quote = '\'')
      (inside : Inside quote inner content)
      (oneLine : '\n' ∉ inner)
      (onward : DifferInComments first second) :
      DifferInComments (quote :: (inner ++ quote :: first)) (quote :: (inner ++ quote :: second))
  | lineComment
      {body other first second : List Char}
      (oneLine : '\n' ∉ body)
      (otherOneLine : '\n' ∉ other)
      (ends : Script.StopsAt (· ≠ '\n') first)
      (onward : DifferInComments first second) :
      DifferInComments ('/' :: '/' :: (body ++ first)) ('/' :: '/' :: (other ++ second))
  | blockComment
      {body other first second : List Char}
      (closed : ¬ ['*', '/'] <:+: body)
      (otherClosed : ¬ ['*', '/'] <:+: other)
      (lineEnds : body.count '\n' = other.count '\n')
      (onward : DifferInComments first second) :
      DifferInComments ('/' :: '*' :: (body ++ '*' :: '/' :: first))
        ('/' :: '*' :: (other ++ '*' :: '/' :: second))

theorem DifferInComments.head?_eq
    {first second : List Char}
    (differ : DifferInComments first second) :
    first.head? = second.head? := by
  cases differ <;> rfl

section LineEnds

variable {c : Char} {text body rest : List Char}

theorem unifyLineEnds_cons (ordinary : c = '\r' → rest.head? ≠ some '\n') :
    unifyLineEnds (c :: rest) = c :: unifyLineEnds rest := by
  rw [unifyLineEnds]
  rintro after rfl rfl
  exact ordinary rfl rfl

theorem unifyLineEnds_cons_of_ne (notReturn : c ≠ '\r') :
    unifyLineEnds (c :: rest) = c :: unifyLineEnds rest :=
  unifyLineEnds_cons fun same => absurd same notReturn

theorem unifyLineEnds_return (ends : rest.head? = some '\n') :
    unifyLineEnds ('\r' :: rest) = unifyLineEnds rest := by
  obtain ⟨behind, rfl⟩ := List.head?_eq_some_iff.mp ends
  rw [unifyLineEnds, unifyLineEnds_cons_of_ne (by decide)]

/-- No text begins in another way than before, but perhaps with a line end. -/
theorem head?_of_unifyLineEnds
    (isHead : (unifyLineEnds text).head? = some c)
    (notLineEnd : c ≠ '\n') :
    text.head? = some c := by
  revert isHead
  fun_cases unifyLineEnds text with
  | case1 rest =>
      rintro ⟨⟩
      contradiction
  | case2 first rest => exact id
  | case3 => exact id

theorem stopsAt_unifyLineEnds (ends : Script.StopsAt (· ≠ '\n') text) :
    Script.StopsAt (· ≠ '\n') (unifyLineEnds text) := by
  intro c isHead
  by_cases lineEnd : c = '\n'
  · simp [lineEnd]
  · exact ends c (head?_of_unifyLineEnds isHead lineEnd)

/-- A text in front of anything but a line end is unified by itself. -/
theorem unifyLineEnds_append (apart : rest.head? ≠ some '\n') :
    unifyLineEnds (body ++ rest) = unifyLineEnds body ++ unifyLineEnds rest := by
  fun_induction unifyLineEnds body with
  | case1 body inductionHypothesis =>
      rw [List.cons_append, List.cons_append, unifyLineEnds, inductionHypothesis, List.cons_append]
  | case2 c body notReturn inductionHypothesis =>
      have ordinary : c = '\r' → (body ++ rest).head? ≠ some '\n' := by
        rintro rfl
        cases body with
        | nil => exact apart
        | cons next body =>
            intro lineEnd
            obtain rfl : next = '\n' := by simpa using lineEnd
            exact notReturn body rfl rfl
      rw [List.cons_append, unifyLineEnds_cons ordinary, inductionHypothesis, List.cons_append]
  | case3 => rfl

theorem unifyLineEnds_of_notMem (oneLine : '\n' ∉ text) : unifyLineEnds text = text := by
  induction text with
  | nil => rfl
  | cons c rest inductionHypothesis =>
      rw [List.mem_cons, not_or] at oneLine
      have ordinary : c = '\r' → rest.head? ≠ some '\n' := fun _ lineEnd =>
        oneLine.2 (List.mem_of_head? lineEnd)
      rw [unifyLineEnds_cons ordinary, inductionHypothesis oneLine.2]

/-- A text on one line loses at most its last character in front of a line end. -/
theorem unifyLineEnds_line (oneLine : '\n' ∉ body) :
    ∃ kept, '\n' ∉ kept ∧ unifyLineEnds (body ++ rest) = kept ++ unifyLineEnds rest := by
  induction body with
  | nil => exact ⟨[], by simp, rfl⟩
  | cons c body inductionHypothesis =>
      rw [List.mem_cons, not_or] at oneLine
      obtain ⟨kept, quiet, same⟩ := inductionHypothesis oneLine.2
      by_cases ends : c = '\r' ∧ (body ++ rest).head? = some '\n'
      · obtain ⟨rfl, lineEnd⟩ := ends
        exact ⟨kept, quiet, (unifyLineEnds_return lineEnd).trans same⟩
      · refine ⟨c :: kept, by simp [oneLine.1, quiet], ?_⟩
        rw [List.cons_append, unifyLineEnds_cons (not_and.mp ends), same, List.cons_append]

/-- No mark that ends comments comes into being. -/
theorem closed_unifyLineEnds (closed : ¬ ['*', '/'] <:+: body) :
    ¬ ['*', '/'] <:+: unifyLineEnds body := by
  fun_induction unifyLineEnds body with
  | case1 rest inductionHypothesis =>
      rw [List.infix_cons_iff, List.infix_cons_iff, not_or, not_or] at closed
      rw [List.infix_cons_iff, not_or]
      exact ⟨by simp, inductionHypothesis closed.2.2⟩
  | case2 c rest notReturn inductionHypothesis =>
      rw [List.infix_cons_iff, not_or] at closed ⊢
      refine ⟨fun begins => closed.1 ?_, inductionHypothesis closed.2⟩
      obtain ⟨rfl, behind, slash⟩ := List.cons_prefix_cons.mp begins
      have isHead : (unifyLineEnds rest).head? = some '/' := by rw [← slash]; rfl
      obtain ⟨behind, rfl⟩ := List.head?_eq_some_iff.mp (head?_of_unifyLineEnds isHead (by decide))
      exact ⟨behind, rfl⟩
  | case3 => exact closed

/-- Unifying the line ends of a literal and of what follows leaves the literal as it is. -/
theorem unifyLineEnds_literal
    {quote : Char}
    {inner : List Char}
    (isQuote : quote = '"' ∨ quote = '\'')
    (oneLine : '\n' ∉ inner) :
    unifyLineEnds (quote :: (inner ++ quote :: rest)) =
      quote :: (inner ++ quote :: unifyLineEnds rest) := by
  have notReturn : quote ≠ '\r' := by
    rcases isQuote with rfl | rfl <;> decide
  have notLineEnd : quote ≠ '\n' := by
    rcases isQuote with rfl | rfl <;> decide
  rw [unifyLineEnds_cons_of_ne notReturn, unifyLineEnds_append (by simpa using notLineEnd),
    unifyLineEnds_cons_of_ne notReturn, unifyLineEnds_of_notMem oneLine]

theorem unifyLineEnds_blockComment :
    unifyLineEnds ('/' :: '*' :: (body ++ '*' :: '/' :: rest)) =
      '/' :: '*' :: (unifyLineEnds body ++ '*' :: '/' :: unifyLineEnds rest) := by
  rw [unifyLineEnds_cons_of_ne (by decide), unifyLineEnds_cons_of_ne (by decide),
    unifyLineEnds_append (by simp), unifyLineEnds_cons_of_ne (by decide),
    unifyLineEnds_cons_of_ne (by decide)]

end LineEnds

theorem DifferInComments.unifyLineEnds
    {first second : List Char}
    (differ : DifferInComments first second) :
    DifferInComments (unifyLineEnds first) (unifyLineEnds second) := by
  induction differ with
  | finish => exact .finish
  | @code c first second notQuote noComment onward inductionHypothesis =>
      by_cases ends : c = '\r' ∧ first.head? = some '\n'
      · obtain ⟨rfl, lineEnd⟩ := ends
        rw [unifyLineEnds_return lineEnd, unifyLineEnds_return (onward.head?_eq ▸ lineEnd)]
        exact inductionHypothesis
      · have ordinary := not_and.mp ends
        rw [unifyLineEnds_cons ordinary, unifyLineEnds_cons (onward.head?_eq ▸ ordinary)]
        refine .code notQuote ?_ inductionHypothesis
        by_contra comment
        simp only [opensComment, Bool.not_eq_false, Bool.and_eq_true, Bool.or_eq_true,
          decide_eq_true_eq] at comment
        obtain ⟨rfl, opened⟩ := comment
        have before := opened.imp (head?_of_unifyLineEnds · (by decide))
          (head?_of_unifyLineEnds · (by decide))
        simp only [opensComment, decide_true, Bool.true_and, Bool.or_eq_false_iff,
          decide_eq_false_iff_not] at noComment
        exact before.elim noComment.1 noComment.2
  | literal isQuote inside oneLine onward inductionHypothesis =>
      rw [unifyLineEnds_literal isQuote oneLine, unifyLineEnds_literal isQuote oneLine]
      exact .literal isQuote inside oneLine inductionHypothesis
  | @lineComment body other first second oneLine otherOneLine ends onward inductionHypothesis =>
      obtain ⟨kept, quiet, same⟩ := @unifyLineEnds_line body first oneLine
      obtain ⟨otherKept, otherQuiet, otherSame⟩ := @unifyLineEnds_line other second otherOneLine
      have opening (text : List Char) :
          Sketch.unifyLineEnds ('/' :: '/' :: text) = '/' :: '/' :: Sketch.unifyLineEnds text := by
        rw [unifyLineEnds_cons_of_ne (by decide), unifyLineEnds_cons_of_ne (by decide)]
      rw [opening, opening, same, otherSame]
      exact .lineComment quiet otherQuiet (stopsAt_unifyLineEnds ends) inductionHypothesis
  | blockComment closed otherClosed lineEnds onward inductionHypothesis =>
      rw [unifyLineEnds_blockComment, unifyLineEnds_blockComment]
      refine .blockComment (closed_unifyLineEnds closed) (closed_unifyLineEnds otherClosed) ?_
        inductionHypothesis
      rw [count_unifyLineEnds, count_unifyLineEnds, lineEnds]

namespace Catalogue

/-- What is left does not depend on what the comments say. -/
theorem strips_eq
    {first second out other : List Char}
    (differ : DifferInComments first second)
    (strips : Strips first out)
    (otherStrips : Strips second other) :
    out = other := by
  induction differ generalizing out other with
  | finish => rw [strips.eq_nil, otherStrips.eq_nil]
  | @code c first second notQuote noComment onward inductionHypothesis =>
      have noOtherComment : opensComment c second = false := by
        rw [← noComment, opensComment, opensComment, onward.head?_eq]
      obtain ⟨left, stripsFirst, rfl⟩ := strips.code notQuote noComment
      obtain ⟨right, stripsSecond, rfl⟩ := otherStrips.code notQuote noOtherComment
      rw [inductionHypothesis stripsFirst stripsSecond]
  | literal isQuote inside oneLine onward inductionHypothesis =>
      obtain ⟨left, stripsFirst, rfl⟩ := strips.literal isQuote inside oneLine
      obtain ⟨right, stripsSecond, rfl⟩ := otherStrips.literal isQuote inside oneLine
      rw [inductionHypothesis stripsFirst stripsSecond]
  | lineComment oneLine otherOneLine ends onward inductionHypothesis =>
      have otherEnds := fun c isHead => ends c (onward.head?_eq ▸ isHead)
      exact inductionHypothesis (strips.lineComment oneLine ends)
        (otherStrips.lineComment otherOneLine otherEnds)
  | @blockComment firstBody secondBody _ _ closed otherClosed lineEnds onward inductionHypothesis =>
      have lineEndsOf (body : List Char) :
          body.filter (· = '\n') = List.replicate (body.count '\n') '\n' :=
        List.filter_beq ..
      have sameLineEnds : firstBody.filter (· = '\n') = secondBody.filter (· = '\n') := by
        rw [lineEndsOf, lineEndsOf, lineEnds]
      obtain ⟨left, stripsFirst, rfl⟩ := strips.blockComment closed
      obtain ⟨right, stripsSecond, rfl⟩ := otherStrips.blockComment otherClosed
      rw [inductionHypothesis stripsFirst stripsSecond, sameLineEnds]

end Catalogue

/-- What the comments of a sketch say has no influence on its script. -/
theorem text_lower_eq_of_comments
    (first second : List Char)
    (differ : DifferInComments first second) :
    (lower first).text = (lower second).text := by
  have stripped :
      (Catalogue.comments.apply (unifyLineEnds first)).1 =
        (Catalogue.comments.apply (unifyLineEnds second)).1 :=
    Catalogue.strips_eq differ.unifyLineEnds (Catalogue.strips_apply _) (Catalogue.strips_apply _)
  have folded (source : List Char) :
      (lower source).text =
        Catalogue.rules.foldl (fun text rule => (rule.apply text).1) (unifyLineEnds source) :=
    lastText_eq_foldl (fun _ member => member) _
  obtain ⟨others, rules⟩ : ∃ others, Catalogue.rules = Catalogue.comments :: others := ⟨_, rfl⟩
  rw [folded, folded, rules, List.foldl_cons, List.foldl_cons, stripped]

/-- Quotes, braces and marks that open comments are text like any other in a comment. -/
theorem text_lower_eq_of_quotes_in_comments :
    let first := "a// b\r\n/* c\n */'/'".toList
    let second := "a// \"/*\n/*\n'\x7b*/'/'".toList
    DifferInComments first second ∧ first ≠ second ∧ (lower first).text = (lower second).text := by
  intro first second
  have closing : DifferInComments ('\'' :: (['/'] ++ ['\''])) ('\'' :: (['/'] ++ ['\''])) :=
    .literal (.inr rfl) (.plain (by decide) (by decide) (by decide) .nothing) (by decide) .finish
  have block := @DifferInComments.blockComment [' ', 'c', '\n', ' '] ['\n', '\'', '\x7b'] _ _
    (by decide) (by decide) rfl closing
  have lineEnd := @DifferInComments.code '\n' _ _ (by decide) (by decide) block
  have line := @DifferInComments.lineComment [' ', 'b', '\r'] [' ', '"', '/', '*'] _ _
    (by decide) (by decide) (by rintro _ ⟨⟩; rfl) lineEnd
  have differ := @DifferInComments.code 'a' _ _ (by decide) (by decide) line
  exact ⟨differ, by decide, text_lower_eq_of_comments first second differ⟩

end LedSketch.Sketch
