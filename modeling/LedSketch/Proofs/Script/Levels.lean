import LedSketch.Proofs.Script.Running

namespace LedSketch.Script

/-!
# Levels of expressions

What it means that tokens are read as an expression of a level.  The parsers of the levels
call each other in the order of the levels, so one level down costs one level of depth.
-/

/-- A token that does not go on with an expression of a level or above. -/
structure Stops
    (level : Nat)
    (kind : TokenKind) :
    Prop where
  assignment : level = 0 → assignment? kind = none
  conditional : level ≤ 1 → kind.isPunct .question = false
  operator : ∀ operators, level ≤ operators + 2 → Operator.ofToken? operators kind = none
  suffix :
    level ≤ 14 →
      kind.isPunct .leftParen = false ∧ kind.isPunct .dot = false ∧
        kind.isPunct .leftBracket = false ∧ step? kind = none

namespace Stops

variable {level : Nat} {kind : TokenKind}

theorem mono
    {above : Nat}
    (stops : Stops level kind)
    (atLeast : level ≤ above) :
    Stops above kind where
  assignment isZero := stops.assignment (by omega)
  conditional atMost := stops.conditional (by omega)
  operator operators atMost := stops.operator operators (by omega)
  suffix atMost := stops.suffix (by omega)

/-- A mark that belongs to no expression stops all of them. -/
theorem of_mark
    {mark : Punct}
    (closes : mark ∈ [.rightParen, .rightBracket, .comma, .semicolon, .colon])
    (level : Nat) :
    Stops level (.punct mark) := by
  simp only [List.mem_cons, List.not_mem_nil, or_false] at closes
  rcases closes with rfl | rfl | rfl | rfl | rfl <;>
    exact ⟨fun _ => rfl, fun _ => rfl, fun _ _ => rfl, fun _ => ⟨rfl, rfl, rfl, rfl⟩⟩

/-- An operator goes on with no expression that binds more tightly. -/
theorem of_operator (op : Operator) : Stops (op.level + 3) (.punct op.mark) where
  assignment isZero := by contradiction
  conditional atMost := by omega
  operator operators atMost := by
    have other : op.level ≠ operators := by omega
    simp [Operator.ofToken?, Operator.ofMark?_mark, other]
  suffix _ := by
    rcases op with op | op <;> cases op <;> exact ⟨rfl, rfl, rfl, rfl⟩

theorem of_question : Stops 2 (.punct .question) :=
  ⟨by simp, by simp, fun _ _ => rfl, fun _ => ⟨rfl, rfl, rfl, rfl⟩⟩

theorem of_assignment (op : Option BinaryOp) : Stops 1 (.punct (assignmentMark op)) := by
  rcases op with _ | op
  · exact ⟨by simp, fun _ => rfl, fun _ _ => rfl, fun _ => ⟨rfl, rfl, rfl, rfl⟩⟩
  · cases op <;>
      exact ⟨by simp, fun _ => rfl, fun _ _ => rfl, fun _ => ⟨rfl, rfl, rfl, rfl⟩⟩

end Stops

namespace Parser

/-- The parser of the expressions of a level or above. -/
def parserAt (level depth : Nat) : Parser Expr :=
  match level with
  | 0 => expression depth
  | 1 => conditional depth
  | level + 2 => if level ≤ Operator.levels then operators depth level else unary depth

/-- Tokens that the parser of a level reads as an expression, whatever stops it. -/
def ReadsWhole
    (level : Nat)
    (kinds : List TokenKind)
    (expr : Expr) :
    Prop :=
  ∀ line depth rest,
    32 * kinds.length ≤ depth + level →
    Stops level (kindOf rest) →
    (parserAt level depth).run (spelledOn line kinds ++ rest) = .ok (expr.onLine line, rest)

/-- Tokens that are read as an expression that more operators of a level can follow. -/
def ReadsChain
    (level : Nat)
    (kinds : List TokenKind)
    (expr : Expr) :
    Prop :=
  ∀ line depth rest,
    32 * kinds.length ≤ depth + (level + 2) →
    Stops (level + 3) (kindOf rest) →
    ∃ left,
      depth ≤ left + kinds.length ∧
        (operators depth level).run (spelledOn line kinds ++ rest) =
          (moreOperators left level (expr.onLine line)).run rest

/-- Tokens that are read as an operand that calls, members, indices and steps can follow. -/
def ReadsOperand
    (kinds : List TokenKind)
    (expr : Expr) :
    Prop :=
  ∀ line depth rest,
    32 * kinds.length ≤ depth + 13 →
    ∃ left,
      depth ≤ left + kinds.length ∧
        (unary depth).run (spelledOn line kinds ++ rest) =
          (suffixes left (expr.onLine line)).run rest

section Lowering

variable {level : Nat} {kinds : List TokenKind} {expr : Expr}

theorem run_suffixes_stop
    {tokens : List Token}
    (depth : Nat)
    (stops : Stops 14 (kindOf tokens)) :
    (suffixes (depth + 1) expr).run tokens = .ok (expr, tokens) := by
  obtain ⟨noCall, noMember, noIndex, noStep⟩ := stops.suffix (Nat.le_refl 14)
  refine run_bind rfl (run_bind (run_takes_other noCall) ?_)
  refine run_bind (run_takes_other noMember) (run_bind (run_takes_other noIndex) ?_)
  refine run_bind rfl ?_
  simp only [noStep]
  rfl

theorem run_moreOperators_stop
    {tokens : List Token}
    (depth : Nat)
    (stops : Stops (level + 2) (kindOf tokens)) :
    (moreOperators (depth + 1) level expr).run tokens = .ok (expr, tokens) := by
  refine run_bind rfl ?_
  simp only [stops.operator level (Nat.le_refl _)]
  rfl

/-- An operand that nothing follows is an expression of the level of prefixes. -/
theorem ReadsOperand.whole
    (reads : ReadsOperand kinds expr)
    (nonempty : 0 < kinds.length) :
    ReadsWhole 13 kinds expr := by
  intro line depth rest enough stops
  obtain ⟨left, atMost, same⟩ := reads line depth rest enough
  obtain ⟨below, rfl⟩ : ∃ below, left = below + 1 := ⟨left - 1, by omega⟩
  exact same.trans (run_suffixes_stop below (stops.mono (by omega)))

/-- A chain that no operator of its level follows is an expression of that level. -/
theorem ReadsChain.whole
    (reads : ReadsChain level kinds expr)
    (isLevel : level < 10)
    (nonempty : 0 < kinds.length) :
    ReadsWhole (level + 2) kinds expr := by
  intro line depth rest enough stops
  obtain ⟨left, atMost, same⟩ := reads line depth rest enough (stops.mono (by omega))
  obtain ⟨below, rfl⟩ : ∃ below, left = below + 1 := ⟨left - 1, by omega⟩
  have isOperators : parserAt (level + 2) depth = operators depth level :=
    if_pos (Nat.le_of_lt isLevel)
  rw [isOperators]
  exact same.trans (run_moreOperators_stop below stops)

/-- An expression that binds more tightly than an operator starts a chain of its level. -/
theorem ReadsWhole.chain
    (reads : ReadsWhole (level + 3) kinds expr)
    (isLevel : level < 10)
    (nonempty : 0 < kinds.length) :
    ReadsChain level kinds expr := by
  intro line depth rest enough stops
  obtain ⟨below, rfl⟩ : ∃ below, depth = below + 1 := ⟨depth - 1, by omega⟩
  have isOperators : parserAt (level + 3) below = operators below (level + 1) :=
    if_pos isLevel
  have first := reads line below rest (by omega) stops
  rw [isOperators] at first
  refine ⟨below, by omega, ?_⟩
  simp only [operators, Operator.levels, isLevel, if_true]
  exact run_bind first rfl

/-- An expression that binds more tightly than a level is an expression of the level. -/
theorem ReadsWhole.lower
    (reads : ReadsWhole (level + 1) kinds expr)
    (atMost : level < 13)
    (nonempty : 0 < kinds.length) :
    ReadsWhole level kinds expr := by
  match level with
  | 0 =>
      intro line depth rest enough stops
      obtain ⟨below, rfl⟩ : ∃ below, depth = below + 1 := ⟨depth - 1, by omega⟩
      refine run_bind (reads line below rest (by omega) (stops.mono (by omega))) ?_
      refine run_bind rfl ?_
      simp only [stops.assignment rfl]
      rfl
  | 1 =>
      intro line depth rest enough stops
      obtain ⟨below, rfl⟩ : ∃ below, depth = below + 1 := ⟨depth - 1, by omega⟩
      refine run_bind (reads line below rest (by omega) (stops.mono (by omega))) ?_
      exact run_bind (run_takes_other (stops.conditional (Nat.le_refl 1))) rfl
  | operators + 2 =>
      by_cases isLevel : operators < 10
      · exact (reads.chain isLevel nonempty).whole isLevel nonempty
      · -- Above the operators stands the level of prefixes.
        obtain rfl : operators = 10 := by omega
        intro line depth rest enough stops
        obtain ⟨below, rfl⟩ : ∃ below, depth = below + 1 := ⟨depth - 1, by omega⟩
        exact reads line below rest (by omega) (stops.mono (by omega))

/-- Tokens that are read as an expression of a level, in the form that the level has. -/
def ReadsAt : Nat → List TokenKind → Expr → Prop
  | 14, kinds, expr => ReadsOperand kinds expr
  | level + 2, kinds, expr =>
      if level < 10 then ReadsChain level kinds expr else ReadsWhole (level + 2) kinds expr
  | level, kinds, expr => ReadsWhole level kinds expr

namespace ReadsAt

theorem whole
    (reads : ReadsAt level kinds expr)
    (atMost : level ≤ 13)
    (nonempty : 0 < kinds.length) :
    ReadsWhole level kinds expr := by
  match level with
  | 0 => exact reads
  | 1 => exact reads
  | operators + 2 =>
      have notOperand : operators ≠ 12 := by omega
      by_cases isLevel : operators < 10
      · simp only [ReadsAt, isLevel, if_true] at reads
        exact reads.whole isLevel nonempty
      · simpa only [ReadsAt, isLevel, if_false] using reads

theorem lower
    (reads : ReadsAt (level + 1) kinds expr)
    (atMost : level < 14)
    (nonempty : 0 < kinds.length) :
    ReadsAt level kinds expr := by
  by_cases isPrefix : level = 13
  · subst isPrefix
    exact ReadsOperand.whole reads nonempty
  · have read := reads.whole (by omega) nonempty
    match level with
    | 0 => exact read.lower (by omega) nonempty
    | 1 => exact read.lower (by omega) nonempty
    | operators + 2 =>
        have notOperand : operators ≠ 12 := by omega
        by_cases isLevel : operators < 10
        · simp only [ReadsAt, isLevel, if_true]
          exact read.chain isLevel nonempty
        · simp only [ReadsAt, isLevel, if_false]
          exact read.lower (by omega) nonempty

/-- An expression is read wherever its place asks for no more than its level. -/
theorem of_le
    {required : Nat}
    (reads : ReadsAt level kinds expr)
    (atMost : level ≤ 14)
    (lower : required ≤ level)
    (nonempty : 0 < kinds.length) :
    ReadsAt required kinds expr := by
  induction lower with
  | refl => exact reads
  | step _ inductionHypothesis =>
      exact inductionHypothesis (reads.lower (by omega) nonempty) (by omega)

end ReadsAt

end Lowering

end Parser

end LedSketch.Script
