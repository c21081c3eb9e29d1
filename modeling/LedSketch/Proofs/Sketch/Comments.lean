import LedSketch.Proofs.Pattern.Pieces
import LedSketch.Proofs.Pattern.Repetition
import LedSketch.Proofs.Sketch.Scanner
import LedSketch.Sketch.Catalogue

namespace LedSketch.Sketch

/-!
# Stripped comments

The rule that strips comments leaves the tokens of a text as they are, and of what stands
between them the blanks and the line ends.
-/

open Pattern Vocabulary
open Script.Lexeme

namespace Catalogue

section Search

variable {turns : Nat} {before : Option Char} {offset : Nat} {groups : List Group}
  {onward : Progress → Option Progress} {found : Progress}

/-- The rest of a line is taken to its end. -/
theorem oneWay_restOfLine
    {body rest : List Char}
    (noLineEnd : '\n' ∉ body)
    (ends : Script.StopsAt (· ≠ '\n') rest) :
    ∃ last,
      @OneWay Progress (search Text.isWordChar turns (noneOf ['\n'])) body.length
        ⟨⟨before, body ++ rest, offset⟩, groups⟩
        ⟨⟨last, rest, offset + body.length⟩, groups⟩ := by
  induction body generalizing before offset with
  | nil =>
      refine ⟨before, .stop fun onward => ?_⟩
      cases rest with
      | nil => rfl
      | cons c rest =>
          obtain rfl : c = '\n' := by simpa using ends c rfl
          rfl
  | cons c body inductionHypothesis =>
      rw [List.mem_cons, not_or] at noLineEnd
      obtain ⟨last, more⟩ :=
        @inductionHypothesis (some c) (offset + 1) noLineEnd.2
      rw [Nat.add_right_comm, Nat.add_assoc] at more
      exact ⟨last, .turn (onlyTo_char (by simpa using Ne.symm noLineEnd.1)) more⟩

/-- The inside of a literal is taken up to its closing quote. -/
theorem oneWay_inside
    {quote : Char}
    {inner content : List Char}
    (notEscape : quote ≠ '\\')
    (inside : Inside quote inner content)
    (noLineEnd : '\n' ∉ inner)
    (behind : List Char) :
    ∃ last count,
      count ≤ inner.length ∧
        @OneWay Progress
          (search Text.isWordChar turns (.either (noneOf [quote, '\\', '\n']) escapedChar)) count
          ⟨⟨before, inner ++ quote :: behind, offset⟩, groups⟩
          ⟨⟨last, quote :: behind, offset + inner.length⟩, groups⟩ := by
  induction inside generalizing before offset with
  | nothing =>
      refine ⟨before, 0, le_rfl, .stop fun onward => ?_⟩
      simp [search_either, search_seq, search_char, escapedChar, mark, noneOf, notEscape]
  | @plain c inner content notQuote notEscape notLineEnd inside inductionHypothesis =>
      rw [List.mem_cons, not_or] at noLineEnd
      obtain ⟨last, count, within, more⟩ :=
        @inductionHypothesis (some c) (offset + 1) noLineEnd.2
      rw [Nat.add_right_comm, Nat.add_assoc] at more
      refine ⟨last, count + 1, Nat.succ_le_succ within, .turn ⟨fun onward => ?_, ?_⟩ more⟩
      · simp [search_either, search_seq, search_char, escapedChar, mark, noneOf, notQuote,
          notEscape, notLineEnd]
      · exact Nat.lt_succ_self offset
  | @escape c inner content inside inductionHypothesis =>
      simp only [List.mem_cons, not_or] at noLineEnd
      obtain ⟨last, count, within, more⟩ :=
        @inductionHypothesis (some c) (offset + 2) noLineEnd.2.2
      rw [Nat.add_right_comm, Nat.add_assoc] at more
      refine ⟨last, count + 1, ?_, .turn ⟨fun onward => ?_, ?_⟩ more⟩
      · simp only [List.length_cons]
        omega
      · have notLineEnd : c ≠ '\n' := Ne.symm noLineEnd.2.1
        simp [search_either, search_seq, search_char, escapedChar, mark, noneOf, notLineEnd]
      · exact Nat.lt_add_of_pos_right (by decide)

/-- The body of a block comment is taken up to its end, which is taken as well. -/
theorem searchTurns_blockComment
    {count : Nat}
    {body : List Char}
    (closed : ¬ ['*', '/'] <:+: body)
    (rest : List Char)
    (enough : body.length ≤ count) :
    ∃ last,
      searchTurns .lazy (search Text.isWordChar turns (.char fun _ => true))
          (search Text.isWordChar turns (literal "*/") some) count
          ⟨⟨before, body ++ '*' :: '/' :: rest, offset⟩, groups⟩ =
        some ⟨⟨last, rest, offset + body.length + 2⟩, groups⟩ := by
  induction body generalizing count before offset with
  | nil => exact ⟨some '/', searchTurns_lazy_stop rfl⟩
  | cons c body inductionHypothesis =>
      rw [List.infix_cons_iff, not_or] at closed
      have notEnd : c = '*' → (body ++ '*' :: '/' :: rest).head? ≠ some '/' := by
        rintro rfl slash
        cases body with
        | nil => simp at slash
        | cons next body =>
            obtain rfl : next = '/' := by simpa using slash
            exact closed.1 ⟨body, rfl⟩
      have notYet : search Text.isWordChar turns (literal "*/") some
          ⟨⟨before, c :: (body ++ '*' :: '/' :: rest), offset⟩, groups⟩ = none := by
        have parts : literal "*/" = .seq (mark '*') (mark '/') := rfl
        rcases next : body ++ '*' :: '/' :: rest with _ | ⟨other, behind⟩
        · simp at next
        · rw [next] at notEnd
          simp only [parts, search_seq, search_char, mark, decide_eq_true_eq]
          by_cases star : c = '*'
          · have notSlash : other ≠ '/' := by simpa using notEnd star
            simp [star, notSlash]
          · simp [star]
      cases count with
      | zero => contradiction
      | succ count =>
          obtain ⟨last, found⟩ := @inductionHypothesis (some c) (offset + 1) count closed.2
            (Nat.le_of_succ_le_succ enough)
          refine ⟨last, ?_⟩
          rw [List.cons_append, searchTurns_lazy (onlyTo_char rfl) notYet, found,
            List.length_cons]
          simp only [Option.some.injEq, Progress.mk.injEq, Cursor.mk.injEq, true_and, and_true]
          omega

/-- The pattern of the rule: a line comment, a block comment, or a literal. -/
theorem comments_pattern :
    comments.pattern =
      .either (.seq (.seq (mark '/') (mark '/')) restOfLine)
        (.either
          (.seq (.seq (mark '/') (mark '*'))
            (.seq (.many .lazy (.char fun _ => true)) (literal "*/")))
          (.either (lineLiteral '"') (lineLiteral '\''))) :=
  rfl

theorem lineLiteral_eq (quote : Char) :
    lineLiteral quote =
      .seq (mark quote)
        (.seq (.many .greedy (.either (noneOf [quote, '\\', '\n']) escapedChar)) (mark quote)) :=
  rfl

/-- Nothing is matched where neither a comment nor a literal begins. -/
theorem matchAt?_neutral
    {c : Char}
    {rest : List Char}
    (noQuote : c ≠ '"' ∧ c ≠ '\'')
    (noComment : opensComment c rest = false) :
    comments.pattern.matchAt? turns ⟨before, c :: rest, offset⟩ = none := by
  have refused : search Text.isWordChar turns comments.pattern some
      ⟨⟨before, c :: rest, offset⟩, []⟩ = none := by
    simp only [comments_pattern, lineLiteral_eq, search_either, search_seq, search_char, mark,
      noQuote.1, noQuote.2, decide_false, Bool.false_eq_true, if_false, Option.or_none]
    by_cases slash : c = '/'
    · subst slash
      cases rest with
      | nil => rfl
      | cons other rest =>
          simp only [opensComment, decide_true, Bool.true_and, List.head?_cons,
            Option.some.injEq, Bool.or_eq_false_iff, decide_eq_false_iff_not] at noComment
          simp [search_char, noComment]
    · simp [slash]
  simp only [matchAt?, refused]

/-- A match of the comments and literals, up to where the text behind it begins. -/
def MatchedUpTo
    (turns : Nat)
    (cursor : Cursor)
    (behind : List Char) :
    Prop :=
  ∃ found, comments.pattern.matchAt? turns cursor = some found ∧ found.last.rest = behind

theorem matchedUpTo_of_search
    {text behind : List Char}
    {last : Option Char}
    {further : Nat}
    (searched :
      search Text.isWordChar turns comments.pattern some ⟨⟨before, text, offset⟩, []⟩ =
        some ⟨⟨last, behind, further⟩, []⟩)
    (goesOn : offset < further) :
    MatchedUpTo turns ⟨before, text, offset⟩ behind := by
  refine ⟨⟨⟨before, text, offset⟩, ⟨last, behind, further⟩, []⟩, ?_, rfl⟩
  simp only [matchAt?, searched, goesOn, if_true]

theorem matchedUpTo_line
    {body rest : List Char}
    (noLineEnd : '\n' ∉ body)
    (ends : Script.StopsAt (· ≠ '\n') rest)
    (enough : body.length ≤ turns) :
    MatchedUpTo turns ⟨before, '/' :: '/' :: (body ++ rest), offset⟩ rest := by
  obtain ⟨last, way⟩ :=
    @oneWay_restOfLine turns (some '/') (offset + 2) [] body rest noLineEnd ends
  have found := @searchTurns_greedy _ _ some _ _ _ _ turns way enough rfl
  have searched : search Text.isWordChar turns comments.pattern some
      ⟨⟨before, '/' :: '/' :: (body ++ rest), offset⟩, []⟩ =
        some ⟨⟨last, rest, offset + 2 + body.length⟩, []⟩ := by
    simp only [comments_pattern, search_either, search_seq, search_char, search_many, mark,
      restOfLine, zeroOrMore, decide_true, if_true, found, Option.some_or]
  exact matchedUpTo_of_search searched (by omega)

theorem matchedUpTo_block
    {body : List Char}
    (closed : ¬ ['*', '/'] <:+: body)
    (rest : List Char)
    (enough : body.length ≤ turns) :
    MatchedUpTo turns ⟨before, '/' :: '*' :: (body ++ '*' :: '/' :: rest), offset⟩ rest := by
  obtain ⟨last, found⟩ :=
    @searchTurns_blockComment turns (some '*') (offset + 2) [] turns body closed rest enough
  have searched : search Text.isWordChar turns comments.pattern some
      ⟨⟨before, '/' :: '*' :: (body ++ '*' :: '/' :: rest), offset⟩, []⟩ =
        some ⟨⟨last, rest, offset + 2 + body.length + 2⟩, []⟩ := by
    have notSlash : decide ('*' = '/') = false := rfl
    simp only [comments_pattern, search_either, search_seq, search_char, search_many, mark,
      decide_true, if_true, notSlash, Bool.false_eq_true, if_false, found, Option.some_or,
      Option.none_or]
  exact matchedUpTo_of_search searched (by omega)

theorem matchedUpTo_literal
    {quote : Char}
    {inner content : List Char}
    (isQuote : quote = '"' ∨ quote = '\'')
    (inside : Inside quote inner content)
    (noLineEnd : '\n' ∉ inner)
    (behind : List Char)
    (enough : inner.length ≤ turns) :
    MatchedUpTo turns ⟨before, quote :: (inner ++ quote :: behind), offset⟩ behind := by
  have notEscape : quote ≠ '\\' := by
    rcases isQuote with rfl | rfl <;> decide
  obtain ⟨last, count, within, way⟩ :=
    @oneWay_inside turns (some quote) (offset + 1) [] quote inner content notEscape inside
      noLineEnd behind
  have closes : search Text.isWordChar turns (mark quote) some
      ⟨⟨last, quote :: behind, offset + 1 + inner.length⟩, []⟩ =
        some ⟨⟨some quote, behind, offset + 1 + inner.length + 1⟩, []⟩ := by
    simp [search, mark, Pattern.pass, Cursor.next]
  have found := searchTurns_greedy way (within.trans enough) closes
  have searched : search Text.isWordChar turns comments.pattern some
      ⟨⟨before, quote :: (inner ++ quote :: behind), offset⟩, []⟩ =
        some ⟨⟨some quote, behind, offset + 1 + inner.length + 1⟩, []⟩ := by
    have notSlash : decide (quote = '/') = false := by
      rcases isQuote with rfl | rfl <;> rfl
    simp only [comments_pattern, lineLiteral_eq, search_either, search_seq]
    simp only [mark] at found ⊢
    simp only [search_char, notSlash, Bool.false_eq_true, if_false, Option.none_or]
    rcases isQuote with rfl | rfl
    · simp only [decide_true, if_true, search_seq, search_many, found, Option.some_or]
    · have notString : decide ('\'' = '"') = false := rfl
      simp only [notString, decide_true, Bool.false_eq_true, if_false, if_true, search_seq,
        search_many, found, Option.none_or]
  exact matchedUpTo_of_search searched (by omega)

end Search

end Catalogue

end LedSketch.Sketch
