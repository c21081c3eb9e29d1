import LedSketch.Proofs.Script.Levels

namespace LedSketch.Script

/-!
# Reading rendered expressions

The tokens of an expression, in front of a token that does not go on with it, are read as
that expression.  Each form of expression is read from its tokens if its parts are.
-/

namespace Parser

section Starts

/-- What starts an operand is none of the other marks. -/
theorem isPunct_of_startsOperand
    {kind : TokenKind}
    {mark : Punct}
    (isStart : startsOperand kind = true)
    (noStart : startsOperand (.punct mark) = false) :
    kind.isPunct mark = false := by
  cases kind with
  | punct found =>
      by_cases same : found = mark
      · subst same
        exact (Bool.eq_false_iff.mp noStart isStart).elim
      · simp [TokenKind.isPunct, same]
  | _ => rfl

end Starts

section Casts

/--
Tokens that are no type name in parentheses once parentheses are put around them: the
first of them that is no name does not close the parentheses.
-/
def NoTypeName (kinds : List TokenKind) : Prop :=
  ∃ (words : List String) (kind : TokenKind) (others : List TokenKind),
    kinds = words.map .name ++ kind :: others ∧
      (∀ word, kind ≠ .name word) ∧ kind.isPunct .rightParen = false

namespace NoTypeName

variable {kinds : List TokenKind} {kind : TokenKind}

/-- What follows does not make a type of the tokens. -/
theorem append
    (noType : NoTypeName kinds)
    (others : List TokenKind) :
    NoTypeName (kinds ++ others) := by
  obtain ⟨words, kind, behind, rfl, noName, notClosed⟩ := noType
  exact ⟨words, kind, behind ++ others, by simp, noName, notClosed⟩

/-- A token that is neither a name nor a parenthesis begins no type. -/
theorem cons
    (noName : ∀ word, kind ≠ .name word)
    (notClosed : kind.isPunct .rightParen = false)
    (others : List TokenKind) :
    NoTypeName (kind :: others) :=
  ⟨[], kind, others, rfl, noName, notClosed⟩

/-- A name with such a token behind it is no type. -/
theorem behind_name
    (noName : ∀ word, kind ≠ .name word)
    (notClosed : kind.isPunct .rightParen = false)
    (word : String)
    (others : List TokenKind) :
    NoTypeName (.name word :: kind :: others) :=
  ⟨[word], kind, others, rfl, noName, notClosed⟩

end NoTypeName

/-- Names are split off up to a token of another kind. -/
theorem splitNames_spelledOn
    {kind : TokenKind}
    (noName : ∀ word, kind ≠ .name word)
    (line : Nat)
    (words : List String)
    (rest : List Token) :
    splitNames (spelledOn line (words.map .name) ++ ⟨kind, line, [], []⟩ :: rest) =
      (words, ⟨kind, line, [], []⟩ :: rest) := by
  induction words with
  | nil =>
      cases kind with
      | name word => exact (noName word rfl).elim
      | _ => rfl
  | cons word words inductionHypothesis =>
      simp only [List.map_cons, spelledOn_cons, List.cons_append, splitNames,
        inductionHypothesis]

/-- There is no cast if no type follows the parenthesis. -/
theorem castAhead?_of_noTypeName
    {kinds : List TokenKind}
    (noType : NoTypeName kinds)
    (line : Nat)
    (rest : List Token) :
    castAhead? (⟨.punct .leftParen, line, [], []⟩ :: (spelledOn line kinds ++ rest)) =
      none := by
  obtain ⟨words, kind, others, rfl, noName, notClosed⟩ := noType
  have split := splitNames_spelledOn noName line words (spelledOn line others ++ rest)
  have opens : (TokenKind.punct .leftParen).isPunct .leftParen = true := rfl
  simp only [castAhead?, kindOf, opens, if_true, List.drop_succ_cons, List.drop_zero,
    spelledOn_append, spelledOn_cons, List.append_assoc, List.cons_append, split,
    notClosed, Bool.false_and, Bool.false_eq_true, if_false]

end Casts

section Operands

variable {kinds : List TokenKind} {kind : TokenKind} {expr : Expr}

/-- Without an operator in front of it, an operand is a primary with suffixes. -/
theorem run_unary_primary
    {tokens rest : List Token}
    {operand : Expr}
    {depth : Nat}
    (noOperator : unary? (kindOf tokens) = none)
    (noStep : step? (kindOf tokens) = none)
    (noAwait : (kindOf tokens).isKeyword .awaitWord = false)
    (noCast : castAhead? tokens = none)
    (read : (primary depth).run tokens = .ok (operand, rest)) :
    (unary (depth + 1)).run tokens = (suffixes depth operand).run rest := by
  refine run_bind rfl (run_bind rfl ?_)
  simp only [noOperator]
  refine run_bind rfl ?_
  simp only [noStep]
  refine run_bind (run_takesKeyword_other noAwait) (run_bind rfl ?_)
  simp only [noCast]
  exact run_bind read rfl

/-- A cast begins with a parenthesis. -/
theorem castAhead?_other
    {tokens : List Token}
    (other : (kindOf tokens).isPunct .leftParen = false) :
    castAhead? tokens = none := by
  simp only [castAhead?, other, Bool.false_eq_true, if_false]

/-- A literal or a name is an operand. -/
theorem readsOperand_of_atom
    (noOperator : unary? kind = none)
    (noStep : step? kind = none)
    (noAwait : kind.isKeyword .awaitWord = false)
    (noParen : kind.isPunct .leftParen = false)
    (read :
      ∀ line depth rest,
        (primary (depth + 1)).run (⟨kind, line, [], []⟩ :: rest) =
          .ok (expr.onLine line, rest)) :
    ReadsOperand [kind] expr := by
  intro line depth rest enough
  simp only [List.length_cons, List.length_nil] at enough
  obtain ⟨below, rfl⟩ : ∃ below, depth = below + 2 := ⟨depth - 2, by omega⟩
  refine ⟨below + 1, Nat.le_refl _, ?_⟩
  exact run_unary_primary noOperator noStep noAwait (castAhead?_other noParen)
    (read line below rest)

/-- An expression in parentheses is an operand. -/
theorem ReadsWhole.parenthesised
    (reads : ReadsWhole 0 kinds expr)
    (noType : NoTypeName kinds) :
    ReadsOperand (.punct .leftParen :: (kinds ++ [.punct .rightParen])) expr := by
  intro line depth rest enough
  have size :
      (TokenKind.punct .leftParen :: (kinds ++ [.punct .rightParen])).length =
        kinds.length + 2 := by
    simp
  obtain ⟨below, rfl⟩ : ∃ below, depth = below + 2 := ⟨depth - 2, by omega⟩
  have closing : Stops 0 (.punct .rightParen) := .of_mark (by simp) 0
  have inner :=
    reads line below (⟨.punct .rightParen, line, [], []⟩ :: rest) (by omega) closing
  refine ⟨below + 1, by omega, ?_⟩
  simp only [List.cons_append, spelledOn_cons, spelledOn_append, spelledOn_nil,
    List.append_assoc, List.nil_append]
  refine run_unary_primary rfl rfl rfl (castAhead?_of_noTypeName noType line _) ?_
  refine run_bind rfl (run_bind rfl (run_bind (run_skip rfl rfl) ?_))
  exact run_bind inner (run_bind (run_expect rfl _) rfl)

/-- What follows an operand makes another operand of it. -/
theorem ReadsOperand.suffix
    {behind : List TokenKind}
    {larger : Expr}
    (reads : ReadsOperand kinds expr)
    (nonempty : 0 < behind.length)
    (goesOn :
      ∀ line depth rest,
        32 * behind.length ≤ depth + 14 →
        (suffixes (depth + 1) (expr.onLine line)).run (spelledOn line behind ++ rest) =
          (suffixes depth (larger.onLine line)).run rest) :
    ReadsOperand (kinds ++ behind) larger := by
  intro line depth rest enough
  have size : (kinds ++ behind).length = kinds.length + behind.length := List.length_append
  obtain ⟨left, atMost, same⟩ := reads line depth (spelledOn line behind ++ rest) (by omega)
  obtain ⟨below, rfl⟩ : ∃ below, left = below + 1 := ⟨left - 1, by omega⟩
  refine ⟨below, by omega, ?_⟩
  simp only [spelledOn_append, List.append_assoc]
  exact same.trans (goesOn line below rest (by omega))

end Operands

section Joined

variable {kinds others : List TokenKind} {first second : Expr}

theorem onLine_apply
    (op : Operator)
    (line : Nat)
    (left right : Expr) :
    (op.apply left right).onLine line = op.apply (left.onLine line) (right.onLine line) := by
  cases op <;> simp [Operator.apply, Expr.onLine]

/-- An operator of a level goes on with a chain of the level. -/
theorem ReadsChain.operator
    {op : Operator}
    (left : ReadsChain op.level kinds first)
    (right : ReadsWhole (op.level + 3) others second) :
    ReadsChain op.level (kinds ++ .punct op.mark :: others) (op.apply first second) := by
  intro line depth rest enough stops
  have size :
      (kinds ++ .punct op.mark :: others).length = kinds.length + others.length + 1 := by
    simp [Nat.add_assoc]
  have isLevel : op.level < 10 := op.level_lt
  obtain ⟨above, atMost, same⟩ :=
    left line depth (⟨.punct op.mark, line, [], []⟩ :: (spelledOn line others ++ rest))
      (by omega) (Stops.of_operator op)
  obtain ⟨below, rfl⟩ : ∃ below, above = below + 1 := ⟨above - 1, by omega⟩
  have isOperators : parserAt (op.level + 3) below = operators below (op.level + 1) :=
    if_pos isLevel
  have read := right line below rest (by omega) stops
  have found : Operator.ofToken? op.level (.punct op.mark) = some op := by
    simp [Operator.ofToken?, Operator.ofMark?_mark]
  rw [isOperators] at read
  refine ⟨below, by omega, ?_⟩
  simp only [spelledOn_append, spelledOn_cons, List.append_assoc, List.cons_append]
  refine same.trans (run_bind rfl ?_)
  simp only [kindOf, found]
  refine run_bind (run_skip rfl rfl) (run_bind read ?_)
  simp only [onLine_apply]

end Joined

section Loose

variable {testKinds firstKinds secondKinds : List TokenKind} {test first second : Expr}

/-- A choice between two expressions is an expression. -/
theorem ReadsWhole.choice
    {written : Nat}
    (tested : ReadsWhole 2 testKinds test)
    (whenTrue : ReadsWhole 0 firstKinds first)
    (whenFalse : ReadsWhole 0 secondKinds second) :
    ReadsWhole 0
      (testKinds ++ .punct .question :: (firstKinds ++ .punct .colon :: secondKinds))
      (.conditional written test first second) := by
  intro line depth rest enough stops
  have size :
      (testKinds ++ .punct .question :: (firstKinds ++ .punct .colon :: secondKinds)).length =
        testKinds.length + firstKinds.length + secondKinds.length + 2 := by
    simp; omega
  obtain ⟨below, rfl⟩ : ∃ below, depth = below + 2 := ⟨depth - 2, by omega⟩
  simp only [spelledOn_append, spelledOn_cons, List.append_assoc, List.cons_append]
  refine @run_bind _ _ _ rest _ _ ((Expr.conditional written test first second).onLine line) _ ?_ ?_
  · refine run_bind (tested line below _ (by omega) .of_question) ?_
    refine run_bind (run_takes_next rfl) ?_
    refine run_bind (whenTrue line below _ (by omega) (.of_mark (by simp) 0)) ?_
    refine run_bind (run_expect rfl _) ?_
    refine run_bind (whenFalse line below _ (by omega) stops) ?_
    simp only [Expr.line_onLine, Expr.onLine]
    rfl
  · refine run_bind rfl ?_
    simp only [stops.assignment rfl]
    rfl

/-- An assignment to a target is an expression. -/
theorem ReadsWhole.assignment
    {op : Option BinaryOp}
    {written : Nat}
    (target : ReadsWhole 1 firstKinds first)
    (value : ReadsWhole 0 secondKinds second)
    (isTarget : first.isTarget = true)
    (isMark : assignment? (.punct (assignmentMark op)) = some op) :
    ReadsWhole 0
      (firstKinds ++ .punct (assignmentMark op) :: secondKinds)
      (.assign written op first second) := by
  intro line depth rest enough stops
  have size :
      (firstKinds ++ .punct (assignmentMark op) :: secondKinds).length =
        firstKinds.length + secondKinds.length + 1 := by
    simp; omega
  obtain ⟨below, rfl⟩ : ∃ below, depth = below + 1 := ⟨depth - 1, by omega⟩
  simp only [spelledOn_append, spelledOn_cons, List.append_assoc, List.cons_append]
  refine run_bind (target line below _ (by omega) (.of_assignment op)) (run_bind rfl ?_)
  simp only [kindOf, isMark, Expr.isTarget_onLine, isTarget, if_true]
  refine run_bind (run_skip rfl rfl) ?_
  refine run_bind (value line below _ (by omega) stops) ?_
  simp only [Expr.line_onLine, Expr.onLine]
  rfl

end Loose

end Parser

open LedSketch.Script.Parser in
/-- An expression that is read back from its tokens. -/
structure Expr.Readable (expr : Expr) : Prop where
  starts : ∃ kind others, expr.spell = kind :: others ∧ startsOperand kind = true
  noType : (∃ line word, expr = .name line word) ∨ NoTypeName expr.spell
  reads : ReadsAt expr.level expr.spell expr

namespace Expr.Readable

open LedSketch.Script.Parser

variable {expr : Expr}

/-- No level is tighter than that of operands. -/
theorem level_le (expr : Expr) : expr.level ≤ 14 := by
  cases expr with
  | binary line op left right =>
      have isLevel : (Operator.binary op).level < 10 := (Operator.binary op).level_lt
      simp only [Expr.level]
      omega
  | logical line op left right =>
      have isLevel : (Operator.logical op).level < 10 := (Operator.logical op).level_lt
      simp only [Expr.level]
      omega
  | update line step fixity target => cases fixity <;> simp [Expr.level]
  | _ => simp [Expr.level]

/-- Every expression is spelled with a token. -/
theorem length_pos (readable : expr.Readable) : 0 < expr.spell.length := by
  obtain ⟨kind, others, spelled, isStart⟩ := readable.starts
  simp [spelled]

/-- An expression that is looser than an operand is not taken for a type. -/
theorem noType_of_level
    (readable : expr.Readable)
    (isLoose : expr.level < 14) :
    NoTypeName expr.spell := by
  rcases readable.noType with ⟨line, word, rfl⟩ | noType
  · contradiction
  · exact noType

/-- An expression is read in a place of any level, in parentheses where they are needed. -/
theorem readsAt
    {required : Nat}
    (readable : expr.Readable)
    (atMost : required ≤ 14) :
    ReadsAt required (expr.spellAt required) expr := by
  by_cases isLoose : expr.level < required
  · have reads := readable.reads.of_le (level_le expr) (Nat.zero_le _) readable.length_pos
    have operand : ReadsAt 14 _ expr :=
      ReadsWhole.parenthesised reads (readable.noType_of_level (by omega))
    simp only [Expr.spellAt, enclosedIf, isLoose, decide_true, if_true]
    exact operand.of_le (Nat.le_refl 14) atMost (by simp)
  · simp only [Expr.spellAt, enclosedIf, isLoose, decide_false, Bool.false_eq_true, if_false]
    exact readable.reads.of_le (level_le expr) (by omega) readable.length_pos

/-- The spelling starts an operand, with parentheses or without. -/
theorem starts_spellAt
    (readable : expr.Readable)
    (required : Nat) :
    ∃ kind others, expr.spellAt required = kind :: others ∧ startsOperand kind = true := by
  by_cases isLoose : expr.level < required
  · simp [Expr.spellAt, enclosedIf, isLoose, startsOperand]
  · simpa [Expr.spellAt, enclosedIf, isLoose] using readable.starts

theorem length_spellAt_pos
    (readable : expr.Readable)
    (required : Nat) :
    0 < (expr.spellAt required).length := by
  obtain ⟨kind, others, spelled, isStart⟩ := readable.starts_spellAt required
  simp [spelled]

/-- What is spelled for a level is read whole at the looser ones. -/
theorem readsWhole_of_le
    {level required : Nat}
    (readable : expr.Readable)
    (lower : level ≤ required)
    (atMost : required ≤ 14)
    (isWhole : level ≤ 13) :
    ReadsWhole level (expr.spellAt required) expr :=
  have nonempty := readable.length_spellAt_pos required
  ((readable.readsAt atMost).of_le atMost lower nonempty).whole isWhole nonempty

theorem readsWhole
    {required : Nat}
    (readable : expr.Readable)
    (atMost : required ≤ 13) :
    ReadsWhole required (expr.spellAt required) expr :=
  readable.readsWhole_of_le (Nat.le_refl required) (by omega) atMost

/-- An expression in a place where anything can stand. -/
theorem readsWhole_spell (readable : expr.Readable) : ReadsWhole 0 expr.spell expr := by
  have reads : ReadsWhole 0 (expr.spellAt 0) expr := readable.readsWhole (Nat.zero_le 13)
  exact reads

/-- What goes on with an expression makes no type name of its parenthesised tokens. -/
theorem noType_append
    {kind : TokenKind}
    (readable : expr.Readable)
    (noName : ∀ word, kind ≠ .name word)
    (notClosed : kind.isPunct .rightParen = false)
    (required : Nat)
    (others : List TokenKind) :
    NoTypeName (expr.spellAt required ++ kind :: others) := by
  by_cases isLoose : expr.level < required
  · simp only [Expr.spellAt, enclosedIf, isLoose, decide_true, if_true, List.cons_append]
    exact .cons (by simp) rfl _
  · simp only [Expr.spellAt, enclosedIf, isLoose, decide_false, Bool.false_eq_true, if_false]
    rcases readable.noType with ⟨line, word, rfl⟩ | noType
    · exact .behind_name noName notClosed word others
    · exact noType.append _

/-- What follows does not change how the spelling starts. -/
theorem starts_append
    (readable : expr.Readable)
    (required : Nat)
    (others : List TokenKind) :
    ∃ kind behind,
      expr.spellAt required ++ others = kind :: behind ∧ startsOperand kind = true := by
  obtain ⟨kind, inside, spelled, isStart⟩ := readable.starts_spellAt required
  exact ⟨kind, inside ++ others, by simp [spelled], isStart⟩

section Lists

/-- An expression does not begin with a mark that starts no operand. -/
theorem kindOf_spell
    {mark : Punct}
    (readable : expr.Readable)
    (noStart : startsOperand (.punct mark) = false)
    (line : Nat)
    (rest : List Token) :
    (kindOf (spelledOn line expr.spell ++ rest)).isPunct mark = false := by
  obtain ⟨kind, others, spelled, isStart⟩ := readable.starts
  simpa [spelled, kindOf] using isPunct_of_startsOperand isStart noStart

/-- The tokens of expressions between commas, up to a closing mark, are read as them. -/
theorem run_expressions
    {close : Punct}
    {items : List Expr}
    (closes : close = .rightParen ∨ close = .rightBracket)
    (readable : ∀ item ∈ items, item.Readable)
    (line depth : Nat)
    (rest : List Token)
    (enough : 32 * (commaSeparated (items.map Expr.spell)).length < depth) :
    (expressions depth close).run
        (spelledOn line (commaSeparated (items.map Expr.spell)) ++
          ⟨.punct close, line, [], []⟩ :: rest) =
      .ok (items.map (Expr.onLine line), rest) := by
  have isMark : close ∈ [.rightParen, .rightBracket, .comma, .semicolon, .colon] := by
    rcases closes with rfl | rfl <;> simp
  have noStart : startsOperand (.punct close) = false := by
    rcases closes with rfl | rfl <;> rfl
  have noComma : (TokenKind.punct close).isPunct .comma = false := by
    rcases closes with rfl | rfl <;> rfl
  obtain ⟨above, rfl⟩ : ∃ above, depth = above + 1 := ⟨depth - 1, by omega⟩
  cases items with
  | nil => exact run_bind (run_takes_next rfl) rfl
  | cons item items =>
      refine run_commaSeparated (expressions · close) ?_ ?_ (List.cons_ne_nil item items) _ enough
      · intro item member below isEnough
        have read := (readable item member).readsWhole_spell
        refine run_bind (run_takes_other ((readable item member).kindOf_spell noStart line _)) ?_
        refine run_bind (read line below _ isEnough (.of_mark isMark 0)) ?_
        exact run_bind (run_takes_other noComma) (run_bind (run_expect rfl _) rfl)
      · intro item member below between others isEnough onward
        have read := (readable item member).readsWhole_spell
        refine run_bind (run_takes_other ((readable item member).kindOf_spell noStart line _)) ?_
        refine run_bind (read line below _ isEnough (.of_mark (by simp) 0)) ?_
        exact run_bind (run_takes_next rfl) (run_bind onward rfl)

end Lists

section Forms

variable {line : Nat}

theorem int (value : Int64) : (Expr.int line value).Readable where
  starts := ⟨_, _, rfl, rfl⟩
  noType := .inr (.cons (by simp) rfl _)
  reads := readsOperand_of_atom rfl rfl rfl rfl fun _ _ _ => rfl

theorem float (value : Float) : (Expr.float line value).Readable where
  starts := ⟨_, _, rfl, rfl⟩
  noType := .inr (.cons (by simp) rfl _)
  reads := readsOperand_of_atom rfl rfl rfl rfl fun _ _ _ => rfl

theorem text (value : String) : (Expr.text line value).Readable where
  starts := ⟨_, _, rfl, rfl⟩
  noType := .inr (.cons (by simp) rfl _)
  reads := readsOperand_of_atom rfl rfl rfl rfl fun _ _ _ => rfl

theorem bool (value : Bool) : (Expr.bool line value).Readable := by
  cases value with
  | false | true =>
      exact {
        starts := ⟨_, _, rfl, rfl⟩
        noType := .inr (.cons (by simp) rfl _)
        reads := readsOperand_of_atom rfl rfl rfl rfl fun _ _ _ => rfl }

theorem undefined : (Expr.undefined line).Readable where
  starts := ⟨_, _, rfl, rfl⟩
  noType := .inr (.cons (by simp) rfl _)
  reads := readsOperand_of_atom rfl rfl rfl rfl fun _ _ _ => rfl

theorem name (word : String) : (Expr.name line word).Readable where
  starts := ⟨_, _, rfl, rfl⟩
  noType := .inl ⟨line, word, rfl⟩
  reads := readsOperand_of_atom rfl rfl rfl rfl fun _ _ _ => rfl

/-- What stands in front of an operand makes an expression of the level of prefixes. -/
theorem readsWhole_behind
    {front : List TokenKind}
    {operand larger : Expr}
    (readable : operand.Readable)
    (nonempty : 0 < front.length)
    (goesOn :
      ∀ line depth tokens rest,
        startsOperand (kindOf tokens) = true →
        (Parser.unary depth).run tokens = .ok (operand.onLine line, rest) →
        (Parser.unary (depth + 1)).run (spelledOn line front ++ tokens) =
          .ok (larger.onLine line, rest)) :
    ReadsWhole 13 (front ++ operand.spellAt 13) larger := by
  intro line depth rest enough stops
  have size :
      (front ++ operand.spellAt 13).length = front.length + (operand.spellAt 13).length :=
    List.length_append
  obtain ⟨kind, others, spelled, isStart⟩ := readable.starts_spellAt 13
  obtain ⟨below, rfl⟩ : ∃ below, depth = below + 1 := ⟨depth - 1, by omega⟩
  have read := readable.readsWhole (Nat.le_refl 13) line below rest (by omega) stops
  have start : startsOperand (kindOf (spelledOn line (operand.spellAt 13) ++ rest)) = true := by
    simpa [spelled, kindOf] using isStart
  simp only [spelledOn_append, List.append_assoc]
  exact goesOn line below _ rest start read

/-- An operator is read in front of its operand, which is in parentheses unless it is as tight. -/
theorem unary
    {operand : Expr}
    (readable : operand.Readable)
    (op : UnaryOp) :
    (Expr.unary line op operand).Readable where
  starts := ⟨_, _, rfl, by cases op <;> rfl⟩
  noType := .inr (.cons (by simp) (by cases op <;> rfl) _)
  reads := by
    refine @readsWhole_behind [.punct op.mark] operand _ readable (by simp) ?_
    intro line depth tokens rest isStart read
    have isOp : unary? (.punct op.mark) = some op := by cases op <;> rfl
    refine run_bind rfl (run_bind rfl ?_)
    simp only [spelledOn_cons, List.cons_append, spelledOn_nil, List.nil_append, kindOf, isOp]
    exact run_bind (run_skip rfl rfl) (run_bind read rfl)

/-- A step is read in front of its target. -/
theorem updateBefore
    {target : Expr}
    (readable : target.Readable)
    (step : Step) :
    (Expr.update line step .before target).Readable where
  starts := ⟨_, _, rfl, by cases step <;> rfl⟩
  noType := .inr (.cons (by simp) (by cases step <;> rfl) _)
  reads := by
    refine @readsWhole_behind [.punct step.mark] target _ readable (by simp) ?_
    intro line depth tokens rest isStart read
    have noOp : unary? (.punct step.mark) = none := by cases step <;> rfl
    have isStep : step? (.punct step.mark) = some step := by cases step <;> rfl
    refine run_bind rfl (run_bind rfl ?_)
    simp only [spelledOn_cons, List.cons_append, spelledOn_nil, List.nil_append, kindOf, noOp]
    refine run_bind rfl ?_
    simp only [kindOf, isStep]
    exact run_bind (run_skip rfl rfl) (run_bind read rfl)

theorem await
    {operand : Expr}
    (readable : operand.Readable) :
    (Expr.await line operand).Readable where
  starts := ⟨_, _, rfl, rfl⟩
  noType := .inr (.cons (by simp) rfl _)
  reads := by
    refine @readsWhole_behind [.keyword .awaitWord] operand _ readable (by simp) ?_
    intro line depth tokens rest isStart read
    refine run_bind rfl (run_bind rfl (run_bind rfl ?_))
    exact run_bind (run_takesKeyword_next rfl) (run_bind read rfl)

/-- The name of a type in parentheses is a cast if an operand follows. -/
theorem castAhead?_typeName
    {tokens : List Token}
    (kind : CastKind)
    (line : Nat)
    (isStart : startsOperand (kindOf tokens) = true) :
    castAhead?
        (spelledOn line [.punct .leftParen, .name kind.typeName, .punct .rightParen] ++
          tokens) =
      some (kind, tokens) := by
  have isType : castKind? [kind.typeName] = some kind := by
    rcases kind with ⟨width, signed⟩ | _ | _
    · cases width <;> cases signed <;> rfl
    · rfl
    · rfl
  simp [castAhead?, TokenKind.isPunct, splitNames, isStart, isType]

/-- A cast is read in front of its operand. -/
theorem cast
    {operand : Expr}
    (readable : operand.Readable)
    (kind : CastKind) :
    (Expr.cast line kind operand).Readable where
  starts := ⟨_, _, rfl, rfl⟩
  noType := .inr (.cons (by simp) rfl _)
  reads := by
    refine @readsWhole_behind [.punct .leftParen, .name kind.typeName, .punct .rightParen]
      operand _ readable (by simp) ?_
    intro line depth tokens rest isStart read
    refine run_bind rfl (run_bind rfl (run_bind rfl ?_))
    refine run_bind (run_takesKeyword_other rfl) (run_bind rfl ?_)
    simp only [castAhead?_typeName kind line isStart]
    exact run_bind rfl (run_bind read rfl)

/-- An array is read item by item. -/
theorem array
    {items : List Expr}
    (readable : ∀ item ∈ items, item.Readable) :
    (Expr.array line items).Readable where
  starts := ⟨_, _, rfl, rfl⟩
  noType := .inr (.cons (by simp) rfl _)
  reads := by
    have spelled :
        (Expr.array line items).spell =
          .punct .leftBracket ::
            (commaSeparated (items.map Expr.spell) ++ [.punct .rightBracket]) := by
      simp [Expr.spell, Expr.spellEach_eq_map]
    intro line depth rest enough
    simp only [spelled, List.length_cons, List.length_append, List.length_nil] at enough ⊢
    obtain ⟨below, rfl⟩ : ∃ below, depth = below + 2 := ⟨depth - 2, by omega⟩
    have read := run_expressions (.inr rfl) readable line below rest (by omega)
    refine ⟨below + 1, by omega, ?_⟩
    simp only [spelledOn_append, spelledOn_cons, spelledOn_nil, List.append_assoc,
      List.cons_append, List.nil_append, Expr.onLine, Expr.onLineEach_eq_map]
    refine run_unary_primary rfl rfl rfl (castAhead?_other rfl) ?_
    refine run_bind rfl (run_bind rfl (run_bind (run_skip rfl rfl) ?_))
    exact run_bind read rfl

/-- A call is read behind its callee. -/
theorem call
    {callee : Expr}
    {arguments : List Expr}
    (called : callee.Readable)
    (readable : ∀ argument ∈ arguments, argument.Readable) :
    (Expr.call line callee arguments).Readable := by
  have spelled :
      (Expr.call line callee arguments).spell =
        callee.spellAt 14 ++
          .punct .leftParen :: (commaSeparated (arguments.map Expr.spell) ++
            [.punct .rightParen]) := by
    simp [Expr.spell, Expr.spellAt, Expr.spellEach_eq_map]
  exact {
    starts := spelled ▸ called.starts_append 14 _
    noType := .inr (spelled ▸ called.noType_append (by simp) rfl 14 _)
    reads := by
      have reads : ReadsOperand (callee.spellAt 14) callee := called.readsAt (Nat.le_refl 14)
      rw [spelled]
      refine reads.suffix (by simp) fun line depth rest enough => ?_
      simp only [List.length_cons, List.length_append, List.length_nil] at enough
      have read := run_expressions (.inl rfl) readable line depth rest (by omega)
      simp only [spelledOn_append, spelledOn_cons, spelledOn_nil, List.append_assoc,
        List.cons_append, List.nil_append, Expr.onLine, Expr.onLineEach_eq_map]
      refine run_bind rfl (run_bind (run_takes_next rfl) ?_)
      exact run_bind read rfl }

/-- A member is read behind its object. -/
theorem member
    {object : Expr}
    (readable : object.Readable)
    (word : String) :
    (Expr.member line object word).Readable where
  starts := readable.starts_append 14 _
  noType := .inr (readable.noType_append (by simp) rfl 14 _)
  reads := by
    have reads : ReadsOperand (object.spellAt 14) object := readable.readsAt (Nat.le_refl 14)
    refine @ReadsOperand.suffix _ _ [.punct .dot, .name word] _ reads (by simp) ?_
    intro line depth rest enough
    refine run_bind rfl (run_bind (run_takes_other rfl) (run_bind (run_takes_next rfl) ?_))
    exact run_bind (run_name rfl _) rfl

/-- A position in brackets is read behind its object. -/
theorem index
    {object position : Expr}
    (readable : object.Readable)
    (second : position.Readable) :
    (Expr.index line object position).Readable where
  starts := readable.starts_append 14 _
  noType := .inr (readable.noType_append (by simp) rfl 14 _)
  reads := by
    have reads : ReadsOperand (object.spellAt 14) object := readable.readsAt (Nat.le_refl 14)
    refine @ReadsOperand.suffix _ _ (.punct .leftBracket :: (position.spell ++
      [.punct .rightBracket])) _ reads (by simp) fun line depth rest enough => ?_
    simp only [List.length_cons, List.length_append, List.length_nil] at enough
    simp only [spelledOn_append, spelledOn_cons, spelledOn_nil, List.append_assoc,
      List.cons_append, List.nil_append]
    refine run_bind rfl (run_bind (run_takes_other rfl) ?_)
    refine run_bind (run_takes_other rfl) (run_bind (run_takes_next rfl) ?_)
    refine run_bind
      (second.readsWhole_spell line depth _ (by omega) (.of_mark (by simp) 0)) ?_
    exact run_bind (run_expect rfl _) rfl

/-- A step is read behind its target. -/
theorem updateAfter
    {target : Expr}
    (readable : target.Readable)
    (step : Step) :
    (Expr.update line step .after target).Readable where
  starts := readable.starts_append 14 _
  noType := .inr (readable.noType_append (by simp) (by cases step <;> rfl) 14 _)
  reads := by
    have reads : ReadsOperand (target.spellAt 14) target := readable.readsAt (Nat.le_refl 14)
    refine @ReadsOperand.suffix _ _ [.punct step.mark] _ reads (by simp) ?_
    intro line depth rest enough
    have isStep : step? (.punct step.mark) = some step := by cases step <;> rfl
    refine run_bind rfl (run_bind (run_takes_other (by cases step <;> rfl)) ?_)
    refine run_bind (run_takes_other (by cases step <;> rfl)) ?_
    refine run_bind (run_takes_other (by cases step <;> rfl)) (run_bind rfl ?_)
    simp only [spelledOn_cons, List.cons_append, kindOf, isStep]
    exact run_bind (run_skip rfl rfl) rfl

theorem update
    {target : Expr}
    (readable : target.Readable)
    (step : Step)
    (fixity : Fixity) :
    (Expr.update line step fixity target).Readable := by
  cases fixity with
  | before => exact readable.updateBefore step
  | after => exact readable.updateAfter step

/-- An operator is read between its operands, each at its own level. -/
theorem apply
    {left right : Expr}
    (first : left.Readable)
    (second : right.Readable)
    (op : Operator) :
    (op.apply left right).Readable := by
  have spelled :
      (op.apply left right).spell =
        left.spellAt (op.level + 2) ++ .punct op.mark :: right.spellAt (op.level + 3) := by
    cases op <;> rfl
  have isLevel : (op.apply left right).level = op.level + 2 := by cases op <;> rfl
  have below : op.level < 10 := op.level_lt
  have chain : ∀ kinds expr,
      ReadsAt (op.level + 2) kinds expr ↔ ReadsChain op.level kinds expr := by
    intro kinds expr
    have notOperand : op.level ≠ 12 := by omega
    simp only [ReadsAt, below, if_true]
  exact {
    starts := spelled ▸ first.starts_append (op.level + 2) _
    noType := by
      refine .inr (spelled ▸ first.noType_append (by simp) ?_ (op.level + 2) _)
      rcases op with op | op <;> cases op <;> rfl
    reads := by
      rw [spelled, isLevel, chain]
      exact ((chain _ _).mp (first.readsAt (by omega))).operator
        (second.readsWhole (by omega)) }

/-- A conditional is read with its alternatives behind the test. -/
theorem conditional
    {test whenTrue whenFalse : Expr}
    (tested : test.Readable)
    (first : whenTrue.Readable)
    (second : whenFalse.Readable) :
    (Expr.conditional line test whenTrue whenFalse).Readable where
  starts := tested.starts_append 2 _
  noType := .inr (tested.noType_append (by simp) rfl 2 _)
  reads :=
    (tested.readsWhole (by omega)).choice first.readsWhole_spell second.readsWhole_spell

/-- The mark of an assignment stands for it if any mark does. -/
theorem assignment?_mark
    {op : Option BinaryOp}
    {kind : TokenKind}
    (isMark : assignment? kind = some op) :
    assignment? (.punct (assignmentMark op)) = some op := by
  rcases op with _ | op
  · rfl
  · cases kind with
    | punct mark => cases mark <;> cases isMark <;> rfl
    | _ => contradiction

/-- An assignment is read with its value behind the target. -/
theorem assign
    {op : Option BinaryOp}
    {kind : TokenKind}
    {target value : Expr}
    (isTarget : target.isTarget = true)
    (isMark : assignment? kind = some op)
    (first : target.Readable)
    (second : value.Readable) :
    (Expr.assign line op target value).Readable where
  starts := first.starts_append 14 _
  noType := by
    refine .inr (first.noType_append (by simp) ?_ 14 _)
    rcases op with _ | op
    · rfl
    · cases op <;> rfl
  reads :=
    (first.readsWhole_of_le (by omega) (Nat.le_refl 14) (by omega)).assignment
      second.readsWhole_spell isTarget (assignment?_mark isMark)

end Forms

end Expr.Readable

end LedSketch.Script
