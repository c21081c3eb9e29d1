import LedSketch.Proofs.Pattern.Prefers
import LedSketch.Proofs.Sketch.Yields

namespace LedSketch

/-!
# Texts that a rule keeps

A rule makes no replacement in a text where no match begins, or where each match is left as
it is.  What it knows about literals at a place depends on the text in front of that place only,
unless a comment mark reaches over it.
-/

namespace Cursor

/-- In front of the place behind a text stands the last character of the text. -/
theorem before_skip
    {cursor : Cursor}
    {passed behind : List Char}
    {c : Char}
    (text : cursor.rest = passed ++ c :: behind) :
    (cursor.skip (passed.length + 1)).before = some c := by
  induction passed generalizing cursor with
  | nil =>
      rw [List.nil_append] at text
      simp only [List.length_nil, skip, next, text]
  | cons first passed inductionHypothesis =>
      have onward : cursor.next.rest = passed ++ c :: behind := by
        rw [next, text]
        rfl
      exact inductionHypothesis onward

end Cursor

namespace Sketch

namespace Lexical

/-- Whether a character is a part of a comment mark. -/
def isCommentMark (c : Char) : Bool := c = '/' || c = '*'

/-- What follows a character does not matter where it is no part of a comment mark. -/
theorem read_following
    {first second : Option Char}
    (notFirst : ∀ c ∈ first, isCommentMark c = false)
    (notSecond : ∀ c ∈ second, isCommentMark c = false)
    (state : Lexical)
    (c : Char) :
    state.read c first = state.read c second := by
  have noMark {following : Option Char} (none : ∀ c ∈ following, isCommentMark c = false) :
      following ≠ some '/' ∧ following ≠ some '*' := by
    constructor <;>
      · rintro rfl
        exact absurd (none _ rfl) (by decide)
  obtain ⟨noLine, noBlock⟩ := noMark notFirst
  obtain ⟨noLineOther, noBlockOther⟩ := noMark notSecond
  unfold read readCode
  simp only [noLine, noBlock, noLineOther, noBlockOther, decide_false, Bool.and_false]

/-- What follows a character that is no part of a comment mark does not matter. -/
theorem read_of_noMark
    {c : Char}
    (noMark : isCommentMark c = false)
    (state : Lexical)
    (first second : Option Char) :
    state.read c first = state.read c second := by
  simp only [isCommentMark, Bool.or_eq_false_iff, decide_eq_false_iff_not] at noMark
  obtain ⟨notSlash, notStar⟩ := noMark
  unfold read readCode
  simp only [notSlash, notStar, decide_false, Bool.false_and]

/-- A text without comment marks is read as it is, whatever follows it. -/
theorem readMany_behind
    {text : List Char}
    (noMarks : ∀ c ∈ text, isCommentMark c = false)
    (state : Lexical)
    (behind other : List Char) :
    state.readMany text.length (text ++ behind) = state.readMany text.length (text ++ other) := by
  induction text generalizing state with
  | nil => rfl
  | cons c text inductionHypothesis =>
      obtain ⟨here, others⟩ := List.forall_mem_cons.mp noMarks
      simp only [List.cons_append, List.length_cons, readMany]
      rw [read_of_noMark here state _ (text ++ other).head?]
      exact inductionHypothesis others _

/-- What is known behind text without marks, which a line end of it may leave a comment by. -/
def skimmed
    (state : Lexical)
    (ended : Bool) :
    Lexical :=
  { state with
    passed := false
    mode := if ended && state.mode = .lineComment then .code else state.mode }

/-- Whether a character means nothing, but for line ends. -/
def isInert (c : Char) : Bool := isNeutral c && !isCommentMark c

variable {state : Lexical} {c : Char} {text rest : List Char}

theorem skimmed_skimmed
    (state : Lexical)
    (first second : Bool) :
    (state.skimmed first).skimmed second = state.skimmed (first || second) := by
  obtain ⟨mode, escaped, passed, depth⟩ := state
  cases first <;> cases second <;> simp only [skimmed, Bool.false_and, Bool.true_and, Bool.or_self,
    Bool.or_true, Bool.true_or, Bool.false_eq_true, if_false]
  by_cases isLine : mode = .lineComment <;> simp [isLine]

theorem inLiteral_skimmed
    (ended : Bool)
    (notLiteral : state.inLiteral = false) :
    (state.skimmed ended).inLiteral = false := by
  obtain ⟨mode, escaped, passed, depth⟩ := state
  cases mode <;> cases ended <;> first | rfl | contradiction

theorem read_inert
    (inert : isInert c = true)
    (notLiteral : state.inLiteral = false)
    (sameLine : state.passed = true → c ≠ '\n')
    (following : Option Char) :
    state.read c following = state.skimmed (c = '\n') := by
  simp only [isInert, isNeutral, isCommentMark, ne_eq, Bool.and_eq_true, Bool.not_eq_true',
    Bool.or_eq_false_iff, decide_eq_true_eq, decide_eq_false_iff_not] at inert
  obtain ⟨⟨⟨⟨⟨-, notText⟩, notChar⟩, notOpening⟩, notClosing⟩, notSlash, notStar⟩ := inert
  obtain ⟨mode, escaped, passed, depth⟩ := state
  cases passed with
  | true => simp [read, skimmed, sameLine rfl]
  | false =>
      cases mode with
      | code =>
          simp [read, readCode, skimmed, notText, notChar, notOpening, notClosing, notSlash]
      | quote mark => contradiction
      | lineComment => by_cases isEnd : c = '\n' <;> simp [read, skimmed, isEnd]
      | blockComment => simp [read, skimmed, notStar]

theorem readMany_inert_of_not_passed
    (inert : ∀ c ∈ text, isInert c = true)
    (notLiteral : state.inLiteral = false)
    (notPassed : state.passed = false) :
    state.readMany text.length (text ++ rest) = state.skimmed (text.contains '\n') := by
  induction text generalizing state with
  | nil =>
      obtain ⟨mode, escaped, passed, depth⟩ := state
      obtain rfl : passed = false := notPassed
      rfl
  | cons c text inductionHypothesis =>
      obtain ⟨here, others⟩ := List.forall_mem_cons.mp inert
      have step := read_inert here notLiteral (by simp [notPassed]) (text ++ rest).head?
      rw [List.cons_append, List.length_cons, readMany, step,
        inductionHypothesis others (inLiteral_skimmed _ notLiteral) rfl, skimmed_skimmed,
        List.contains_cons, Bool.beq_comm]
      rfl

/-- Of a text without marks only its line ends matter, if it does not begin with one. -/
theorem readMany_inert
    (inert : ∀ other ∈ c :: text, isInert other = true)
    (notLiteral : state.inLiteral = false)
    (sameLine : c ≠ '\n') :
    state.readMany (c :: text).length (c :: text ++ rest) = state.skimmed (text.contains '\n') := by
  obtain ⟨here, others⟩ := List.forall_mem_cons.mp inert
  have step := read_inert here notLiteral (fun _ => sameLine) (text ++ rest).head?
  rw [List.cons_append, List.length_cons, readMany, step,
    readMany_inert_of_not_passed others (inLiteral_skimmed _ notLiteral) rfl, skimmed_skimmed,
    decide_eq_false sameLine, Bool.false_or]

end Lexical

/-- Whether a rule makes no replacement in a text, from what is known at its start on. -/
def Rule.Keeps
    (rule : Rule)
    (turns : Nat)
    (state : Lexical)
    (before : Option Char)
    (text : List Char) :
    Prop :=
  ∀ count offset, text.length ≤ count →
    let segments :=
      rule.segmentsFrom state (rule.pattern.piecesFrom turns count ⟨before, text, offset⟩)
    segments.flatMap Segment.after = text ∧ segments.countP Segment.isReplaced = 0

namespace Rule

variable {rule : Rule} {turns : Nat} {state : Lexical} {before : Option Char}
  {text rest : List Char}

namespace Keeps

theorem nil : rule.Keeps turns state before [] := by
  intro count offset _
  cases count <;> exact ⟨rfl, rfl⟩

theorem plain
    {c : Char}
    (unmatched : ∀ offset, rule.pattern.matchAt? turns ⟨before, c :: rest, offset⟩ = none)
    (onward : rule.Keeps turns (state.read c rest.head?) (some c) rest) :
    rule.Keeps turns state before (c :: rest) := by
  intro count offset enough
  cases count with
  | zero => contradiction
  | succ count =>
      obtain ⟨kept, none⟩ := onward count (offset + 1) (Nat.le_of_succ_le_succ enough)
      simp only [Pattern.piecesFrom, unmatched, segmentsFrom, List.flatMap_cons, List.countP_cons]
      exact ⟨congrArg (c :: ·) kept, none⟩

/-- A match that is left as it is. -/
theorem found
    {old : List Char}
    (last : Option Char)
    (matched :
      ∀ offset, ∃ found,
        rule.pattern.matchAt? turns ⟨before, old ++ rest, offset⟩ = some found ∧
          found.last.rest = rest ∧ found.last.before = last ∧
            rule.segment state found = .kept found.text)
    (onward : rule.Keeps turns (state.readMany old.length (old ++ rest)) last rest) :
    rule.Keeps turns state before (old ++ rest) := by
  intro count offset enough
  obtain ⟨found, isMatch, behind, isLast, left⟩ := matched offset
  obtain ⟨isText, notEmpty⟩ := text_of_matchAt? isMatch behind
  have positive := List.length_pos_iff.mpr notEmpty
  rw [List.length_append] at enough
  obtain ⟨count, rfl⟩ : ∃ fewer, count = fewer + 1 := ⟨count - 1, by omega⟩
  have isPlace : found.last = ⟨last, rest, found.last.offset⟩ := by rw [← isLast, ← behind]
  obtain ⟨kept, none⟩ := onward count found.last.offset (by omega)
  rw [← isPlace] at kept none
  simp only [segmentsFrom_found state isMatch behind, left, isText, List.flatMap_cons,
    List.countP_cons]
  exact ⟨congrArg (old ++ ·) kept, none⟩

/-- No match begins in a stretch of characters that the pattern may not start with. -/
theorem skip
    {passed : List Char}
    {last : Option Char}
    (refused : ∀ c ∈ passed, rule.pattern.mayStart c = false)
    (isLast : (passed.getLast?.or before) = last)
    (onward : rule.Keeps turns (state.readMany passed.length (passed ++ rest)) last rest) :
    rule.Keeps turns state before (passed ++ rest) := by
  induction passed generalizing before state with
  | nil =>
      subst isLast
      exact onward
  | cons c passed inductionHypothesis =>
      obtain ⟨here, others⟩ := List.forall_mem_cons.mp refused
      refine plain (fun _ => Pattern.matchAt?_eq_none_of_mayStart rfl here)
        (inductionHypothesis others ?_ onward)
      rw [← isLast, List.getLast?_cons]
      cases passed.getLast? <;> rfl

/-- A text is kept if no match begins anywhere in it. -/
theorem of_unmatched
    (unmatched :
      ∀ front behind, text = front ++ behind → ∀ offset,
        rule.pattern.matchAt? turns ⟨front.getLast?.or before, behind, offset⟩ = none) :
    rule.Keeps turns state before text := by
  induction text generalizing before state with
  | nil => exact .nil
  | cons c text inductionHypothesis =>
      refine plain (unmatched [] _ rfl) (inductionHypothesis fun front behind split => ?_)
      have later := unmatched (c :: front) behind (by rw [split, List.cons_append])
      rw [List.getLast?_cons] at later
      cases isLast : front.getLast? with
      | none => simpa [isLast] using later
      | some last => simpa [isLast] using later

end Keeps

theorem apply_of_keeps (keeps : rule.Keeps text.length .initial none text) :
    rule.apply text = (text, 0) := by
  obtain ⟨kept, none⟩ := keeps text.length 0 (Nat.le_refl _)
  exact Prod.ext kept none

end Rule

end Sketch

end LedSketch
