import LedSketch.Proofs.Sketch.CodeText
import LedSketch.Proofs.Sketch.Replaced

namespace LedSketch.Sketch

/-!
# Reading a text beside what a rule makes of it

A text and what a rule makes of it are read side by side.  The two readings stay in step over
what is kept, and over a replaced stretch if both lie outside of comments or in one comment.
-/

open Script.Lexeme

/-- Whether two characters next to each other open a comment in code, or close one. -/
def JoinsMark
    (mode : Mode)
    (c : Char)
    (following : Option Char) :
    Prop :=
  match mode with
  | .code => c = '/' ∧ (following = some '/' ∨ following = some '*')
  | .blockComment => c = '*' ∧ following = some '/'
  | .lineComment | .quote _ => False

/-- What is no part of a mark is none behind any character. -/
theorem not_joinsMark
    {following : Option Char}
    (nothing : opensNothing following)
    (mode : Mode)
    (c : Char) :
    ¬ JoinsMark mode c following := by
  cases mode with
  | code =>
      rintro ⟨-, isSlash | isStar⟩
      · exact (nothing '/' isSlash).1 rfl
      · exact (nothing '*' isStar).2 rfl
  | blockComment => exact fun joins => (nothing '/' joins.2).1 rfl
  | lineComment => exact id
  | quote mark => exact id

namespace Lexical

variable {state : Lexical} {c : Char} {following other : Option Char} {text rest : List Char}

/-- What follows a character does not matter where the two are no mark. -/
theorem read_eq_of_noMark
    (notPassed : (state.read c following).passed = false)
    (noMark : ¬ JoinsMark (state.read c following).mode c other) :
    state.read c other = state.read c following := by
  obtain ⟨mode, escaped, passed, depth⟩ := state
  cases passed with
  | true => rfl
  | false =>
      cases mode with
      | quote mark => rfl
      | lineComment => rfl
      | code =>
          by_cases slash : c = '/'
          · have notOpened : following ≠ some '/' ∧ following ≠ some '*' := by
              constructor <;>
                · rintro rfl
                  simp [read, readCode, slash] at notPassed
            have notOther : other ≠ some '/' ∧ other ≠ some '*' := by
              simpa [read, readCode, slash, notOpened, JoinsMark] using noMark
            simp [read, readCode, notOther, notOpened]
          · simp [read, readCode, slash]
      | blockComment =>
          by_cases star : c = '*'
          · have notClosed : following ≠ some '/' := by
              rintro rfl
              simp [read, star] at notPassed
            have notOther : other ≠ some '/' := by
              simpa [read, star, notClosed, JoinsMark] using noMark
            simp [read, notOther, notClosed]
          · simp [read, star]

/-- What follows a character does not matter where code goes on in front of a slash. -/
theorem read_eq_of_code (isCode : (state.read c (some '/')).flat = code 0) :
    state.read c other = state.read c (some '/') := by
  obtain ⟨mode, escaped, passed, depth⟩ := state
  cases passed with
  | true => rfl
  | false =>
      cases mode with
      | quote mark => rfl
      | lineComment => rfl
      | code =>
          have notSlash : c ≠ '/' := by
            rintro rfl
            simp [read, readCode, flat, code] at isCode
          simp [read, readCode, notSlash]
      | blockComment =>
          have notStar : c ≠ '*' := by
            rintro rfl
            simp [read, flat, code] at isCode
          simp [read, notStar]

/-- A comment goes on as it is until it ends. -/
theorem read_comment
    (inside : state.inComment = true)
    (notPassed : state.passed = false)
    (stays : (state.read c following).inComment = true) :
    state.read c following = state ∧ (state.mode = .lineComment → c ≠ '\n') ∧
      (state.mode = .blockComment → ¬ (c = '*' ∧ following = some '/')) := by
  obtain ⟨mode, escaped, passed, depth⟩ := state
  obtain rfl : passed = false := notPassed
  cases mode with
  | code => contradiction
  | quote mark => contradiction
  | lineComment =>
      by_cases lineEnd : c = '\n'
      · simp [read, lineEnd, inComment] at stays
      · simp [read, lineEnd]
  | blockComment =>
      by_cases closed : c = '*' ∧ following = some '/'
      · simp [read, closed, inComment] at stays
      · refine ⟨?_, fun isLine => by contradiction, fun _ => closed⟩
        simp only [read, Bool.false_eq_true, if_false, Bool.and_eq_true, decide_eq_true_eq,
          if_neg closed]

/-- What is read of a comment that goes on has neither its line end nor its closing mark. -/
theorem readMany_comment
    (notPassed : state.passed = false)
    (inside : ∀ count ≤ text.length, (state.readMany count (text ++ rest)).inComment = true) :
    state.readMany text.length (text ++ rest) = state ∧
      (state.mode = .lineComment → '\n' ∉ text) ∧
      (state.mode = .blockComment → ¬ ['*', '/'] <:+: text) := by
  induction text with
  | nil => exact ⟨rfl, fun _ => List.not_mem_nil, fun _ => by simp⟩
  | cons c text inductionHypothesis =>
      have stays : (state.read c (text ++ rest).head?).inComment = true := inside 1 (by simp)
      obtain ⟨same, notLineEnd, notClosed⟩ :=
        read_comment (inside 0 (Nat.zero_le _)) notPassed stays
      have onward (count : Nat) :
          state.readMany (count + 1) (c :: text ++ rest) = state.readMany count (text ++ rest) :=
        congrArg (·.readMany count (text ++ rest)) same
      obtain ⟨last, quiet, open_⟩ := inductionHypothesis fun count within => by
        rw [← onward]
        exact inside (count + 1) (Nat.succ_le_succ within)
      refine ⟨(onward _).trans last, fun isLine member => ?_, fun isBlock closes => ?_⟩
      · rcases List.mem_cons.mp member with lineEnd | later
        · exact notLineEnd isLine lineEnd.symm
        · exact quiet isLine later
      · rcases List.infix_cons_iff.mp closes with begins | later
        · obtain ⟨rfl, behind, rfl⟩ := List.cons_prefix_cons.mp begins
          exact notClosed isBlock ⟨rfl, rfl⟩
        · exact open_ isBlock later

theorem inLiteral_read
    (before : state.escaped = true → state.inLiteral = true)
    (after : (state.read c following).escaped = true) :
    (state.read c following).inLiteral = true := by
  obtain ⟨mode, escaped, passed, depth⟩ := state
  cases passed <;> cases mode <;> cases escaped <;>
    simp only [read, readCode, readQuoted, inLiteral, Bool.false_eq_true, if_false, if_true,
      imp_false, not_true_eq_false, true_implies] at *
  all_goals
    split_ifs at *
    all_goals simp_all

/-- Only in a literal a character is escaped. -/
theorem inLiteral_of_escaped
    (before : state.escaped = true → state.inLiteral = true)
    {count : Nat}
    (after : (state.readMany count text).escaped = true) :
    (state.readMany count text).inLiteral = true := by
  induction count generalizing state text with
  | zero => exact before after
  | succ count inductionHypothesis =>
      cases text with
      | nil => exact before after
      | cons c rest => exact inductionHypothesis (inLiteral_read before) after

end Lexical

namespace Reading

variable {reading next last : Reading} {c : Char} {following : Option Char} {text : List Char}

theorem state_of_read (read : reading.read c following = some next) :
    next.state = (reading.state.read c following).flat := by
  unfold Reading.read at read
  dsimp only at read
  split_ifs at read <;> cases read <;> rfl

/-- Outside of literals none is open. -/
theorem opened_of_readAll
    (before : reading.state.inLiteral = false → reading.opened = [])
    (read : reading.readAll text following = some last)
    (outside : last.state.inLiteral = false) :
    last.opened = [] := by
  induction text generalizing reading with
  | nil =>
      cases read
      exact before outside
  | cons c text inductionHypothesis =>
      obtain ⟨next, isNext, onward⟩ := Option.bind_eq_some_iff.mp read
      refine inductionHypothesis (fun notLiteral => ?_) onward
      unfold Reading.read at isNext
      dsimp only at isNext
      split_ifs at isNext with inLiteral <;> cases isNext
      · rw [inLiteral] at notLiteral
        contradiction
      · rfl
      · rfl

/-- In a comment nothing is read as long as the comment goes on. -/
theorem readAll_comment
    {state : Lexical}
    {literals : List (List Char)}
    (isFlat : state.flat = state)
    (inside : state.inComment = true)
    (notPassed : state.passed = false)
    (noLineEnd : state.mode = .lineComment → '\n' ∉ text)
    (notClosed : state.mode = .blockComment → ¬ ['*', '/'] <:+: text ++ following.toList) :
    (Reading.mk state [] literals).readAll text following = some ⟨state, [], literals⟩ := by
  induction text with
  | nil => rfl
  | cons c text inductionHypothesis =>
      have notLiteral := Lexical.inLiteral_of_inComment inside
      have stays : state.read c (text.head?.or following) = state := by
        obtain ⟨mode, escaped, passed, depth⟩ := state
        obtain rfl : passed = false := notPassed
        cases mode with
        | code => contradiction
        | quote mark => contradiction
        | lineComment =>
            have notLineEnd : c ≠ '\n' := by
              rintro rfl
              exact noLineEnd rfl List.mem_cons_self
            simp [Lexical.read, notLineEnd]
        | blockComment =>
            have open_ : ¬ (c = '*' ∧ text.head?.or following = some '/') := by
              rintro ⟨rfl, slash⟩
              apply notClosed rfl
              rw [← head?_append_toList] at slash
              obtain ⟨behind, isText⟩ := List.head?_eq_some_iff.mp slash
              rw [List.cons_append, isText]
              exact ⟨[], behind, rfl⟩
            simp only [Lexical.read, Bool.false_eq_true, if_false, Bool.and_eq_true,
              decide_eq_true_eq, if_neg open_]
      have step : (Reading.mk state [] literals).read c (text.head?.or following) =
          some ⟨state, [], literals⟩ := by
        simp only [Reading.read, stays, isFlat, notLiteral, Bool.false_eq_true, if_false,
          Bool.not_false, if_true]
      rw [readAll, step, Option.bind_some]
      exact inductionHypothesis
        (fun isLine member => noLineEnd isLine (List.mem_cons_of_mem _ member))
        fun isBlock within => notClosed isBlock (within.trans (List.suffix_cons _ _).isInfix)

end Reading

/--
How a reading of what a rule makes of a text follows the reading of the text: it knows the
same and has the literals of the text, or a line comment has been left out there.
-/
inductive Follows (rest : List Char) : Reading → Reading → Prop where
  | same
      {state : Lexical}
      {opened : List Char}
      {literals others : List (List Char)}
      (kept : literals.Sublist others) :
      Follows rest ⟨state, opened, literals⟩ ⟨state, opened, others⟩
  | stripped
      {literals others : List (List Char)}
      (kept : literals.Sublist others)
      (ends : Script.StopsAt (· ≠ '\n') rest) :
      Follows rest ⟨⟨.lineComment, false, false, 0⟩, [], literals⟩ (.code others)

namespace Follows

variable {reading follower next last : Reading} {c : Char} {following other : Option Char}
  {text behind otherBehind : List Char}

theorem read
    (follows : Follows (c :: behind) reading follower)
    (read : reading.read c following = some next)
    (border : reading.state.read c other = reading.state.read c following) :
    ∃ nextFollower,
      follower.read c other = some nextFollower ∧ Follows behind next nextFollower := by
  cases follows with
  | @same state opened literals others kept =>
      unfold Reading.read at read ⊢
      dsimp only at read border ⊢
      rw [border]
      split_ifs at read ⊢ <;> cases read
      · exact ⟨_, rfl, .same kept⟩
      · exact ⟨_, rfl, .same kept⟩
      · exact ⟨_, rfl, .same (kept.append_right _)⟩
  | @stripped literals others kept ends =>
      obtain rfl : c = '\n' := by simpa using ends c rfl
      cases read
      exact ⟨_, rfl, .same kept⟩

/-- What is kept is read in step. -/
theorem readAll
    (follows : Follows (text ++ behind) reading follower)
    (read : reading.readAll text behind.head? = some last)
    (border :
      ∀ c ∈ text.getLast?, ∀ state : Lexical,
        (state.read c behind.head?).flat = last.state →
        state.read c otherBehind.head? = state.read c behind.head?) :
    ∃ lastFollower,
      follower.readAll text otherBehind.head? = some lastFollower ∧
        Follows behind last lastFollower := by
  induction text generalizing reading follower with
  | nil =>
      cases read
      exact ⟨follower, rfl, follows⟩
  | cons c text inductionHypothesis =>
      obtain ⟨next, isNext, onward⟩ := Option.bind_eq_some_iff.mp read
      have here :
          reading.state.read c (text.head?.or otherBehind.head?) =
            reading.state.read c (text.head?.or behind.head?) := by
        cases text with
        | nil =>
            cases onward
            exact border c rfl _ (Reading.state_of_read isNext).symm
        | cons => rfl
      obtain ⟨nextFollower, isNextFollower, followsNext⟩ := follows.read isNext here
      obtain ⟨lastFollower, isLast, followsLast⟩ :=
        inductionHypothesis followsNext onward fun other isOther =>
          border other (by
            cases text with
            | nil => contradiction
            | cons head text => rwa [List.getLast?_cons_cons])
      exact ⟨lastFollower, Option.bind_eq_some_iff.mpr ⟨_, isNextFollower, isLast⟩, followsLast⟩

end Follows

/-- Readings that stay in step over every stretch stay in step over all of them. -/
theorem follows_run
    {segments : List Segment}
    (step :
      ∀ earlier segment later,
        segments = earlier ++ segment :: later →
        ∀ reading follower next,
          (Reading.code []).readAll (earlier.flatMap Segment.before)
              ((segment :: later).flatMap Segment.before).head? = some reading →
          Follows ((segment :: later).flatMap Segment.before) reading follower →
          reading.readAll segment.before (later.flatMap Segment.before).head? = some next →
          ∃ nextFollower,
            follower.readAll segment.after (later.flatMap Segment.after).head? =
                some nextFollower ∧
              Follows (later.flatMap Segment.before) next nextFollower)
    {last : Reading}
    (read : (Reading.code []).readAll (segments.flatMap Segment.before) none = some last) :
    ∃ lastFollower,
      (Reading.code []).readAll (segments.flatMap Segment.after) none = some lastFollower ∧
        Follows [] last lastFollower := by
  have run {later earlier : List Segment} (split : segments = earlier ++ later)
      {reading follower : Reading}
      (reached : (Reading.code []).readAll (earlier.flatMap Segment.before)
        (later.flatMap Segment.before).head? = some reading)
      (follows : Follows (later.flatMap Segment.before) reading follower)
      (onward : reading.readAll (later.flatMap Segment.before) none = some last) :
      ∃ lastFollower,
        follower.readAll (later.flatMap Segment.after) none = some lastFollower ∧
          Follows [] last lastFollower := by
    induction later generalizing earlier reading follower with
    | nil =>
        cases onward
        exact ⟨follower, rfl, follows⟩
    | cons segment later inductionHypothesis =>
        rw [List.flatMap_cons, Reading.readAll_append, Option.or_none,
          Option.bind_eq_some_iff] at onward
        obtain ⟨next, isNext, onward⟩ := onward
        obtain ⟨nextFollower, isNextFollower, followsNext⟩ :=
          step earlier segment later split reading follower next reached follows isNext
        have reachedNext : (Reading.code []).readAll
            ((earlier ++ [segment]).flatMap Segment.before)
            (later.flatMap Segment.before).head? = some next := by
          rw [List.flatMap_append, Reading.readAll_append, List.flatMap_singleton]
          rw [List.flatMap_cons, List.head?_append] at reached
          exact Option.bind_eq_some_iff.mpr ⟨reading, reached, isNext⟩
        obtain ⟨lastFollower, isLast, followsLast⟩ :=
          inductionHypothesis (by simpa using split) reachedNext followsNext onward
        refine ⟨lastFollower, ?_, followsLast⟩
        rw [List.flatMap_cons, Reading.readAll_append, Option.or_none]
        exact Option.bind_eq_some_iff.mpr ⟨nextFollower, isNextFollower, isLast⟩
  exact @run segments [] rfl _ _ rfl (.same (List.Sublist.refl [])) read

end LedSketch.Sketch
