import LedSketch.Proofs.Script.OperatorTrees
import LedSketch.Proofs.Script.StatementsRead

namespace LedSketch.Script

/-!
# Precedence

Operands and operators are read as the one tree that groups them by the levels of the
operators.  The only operands that are read as something else are type names in
parentheses: in front of a plus or a minus they make a cast.
-/

open Script.Parser

namespace Operand

variable (operand : Operand)

/-- An operand is read again in front of any tokens. -/
theorem run_primary
    {depth : Nat}
    (enough : 32 * operand.tokens.length < depth + 15)
    (behind : List Token) :
    (primary depth).run (operand.tokens ++ behind) = .ok (operand.expr, behind) := by
  obtain ⟨once, rest, ran⟩ := operand.reads
  obtain ⟨taken, whole, _, again⟩ :=
    (expressionsReread once).primary depth _ operand.expr rest trivial ran
  cases List.append_cancel_right whole
  exact again behind enough nofun

theorem length_pos : 1 ≤ operand.tokens.length := by
  obtain ⟨once, rest, ran⟩ := operand.reads
  obtain ⟨taken, whole, long, _⟩ :=
    (expressionsReread once).primary 0 _ operand.expr rest trivial ran
  cases List.append_cancel_right whole
  exact long

/-- No operand starts like something that only stands in front of one. -/
theorem starts (behind : List Token) :
    let kind := kindOf (operand.tokens ++ behind)
    unary? kind = none ∧ step? kind = none ∧ kind.isKeyword .awaitWord = false ∧
      startsOperand kind = true := by
  have ran : (primary (32 * operand.tokens.length + 1)).run (operand.tokens ++ behind) =
      .ok (operand.expr, behind) :=
    operand.run_primary (by omega) behind
  obtain ⟨_, _, got, ran⟩ := run_bind_eq_ok ran
  cases got
  obtain ⟨_, _, peeked, ran⟩ := run_bind_eq_ok ran
  cases peeked
  obtain ⟨_, between, _, ran⟩ := run_bind_eq_ok ran
  cases isKind : kindOf (operand.tokens ++ behind) with
  | keyword word =>
      cases word <;> rw [isKind] at ran <;> first | exact ⟨rfl, rfl, rfl, rfl⟩ | contradiction
  | punct mark =>
      cases mark <;> rw [isKind] at ran <;> first | exact ⟨rfl, rfl, rfl, rfl⟩ | contradiction
  | endOfInput =>
      rw [isKind] at ran
      contradiction
  | _ => exact ⟨rfl, rfl, rfl, rfl⟩

/-- No cast is ahead of an operand in front of a token of a kind. -/
def Uncast (kind : TokenKind) : Prop :=
  ∀ behind, kindOf behind = kind → castAhead? (operand.tokens ++ behind) = none

end Operand

namespace OperatorTree

/-- No cast is ahead of the operands of a tree in front of a token of a kind. -/
def Uncast : OperatorTree → TokenKind → Prop
  | .operand single, kind => single.Uncast kind
  | .node left sign right, kind => left.Uncast sign.token.kind ∧ right.Uncast kind

/-- The tokens of a tree are read as its expression in front of what stops its level. -/
def ReadsWhole
    (level : Nat)
    (tree : OperatorTree) :
    Prop :=
  ∀ depth behind,
    32 * tree.tokens.length ≤ depth + (level + 2) →
    Stops (level + 2) (kindOf behind) →
    tree.Uncast (kindOf behind) →
    (operators depth level).run (tree.tokens ++ behind) = .ok (tree.expr, behind)

/-- The tokens of a tree are read as an expression that operators of a level can follow. -/
def ReadsChain
    (level : Nat)
    (tree : OperatorTree) :
    Prop :=
  ∀ depth behind,
    32 * tree.tokens.length ≤ depth + (level + 2) →
    Stops (level + 3) (kindOf behind) →
    tree.Uncast (kindOf behind) →
    ∃ left,
      depth ≤ left + tree.tokens.length ∧
        (operators depth level).run (tree.tokens ++ behind) =
          (moreOperators left level tree.expr).run behind

variable {tree : OperatorTree} {level : Nat}

theorem length_pos (tree : OperatorTree) : 1 ≤ tree.tokens.length := by
  cases tree with
  | operand single => exact single.length_pos
  | node left sign right => simp [tokens]; omega

theorem ReadsChain.whole
    (reads : tree.ReadsChain level)
    (isLevel : level < Operator.levels) :
    tree.ReadsWhole level := by
  intro depth behind enough stops uncast
  have nonempty := tree.length_pos
  have atMost : level < 10 := isLevel
  obtain ⟨left, atMost, same⟩ := reads depth behind enough (stops.mono (by omega)) uncast
  obtain ⟨below, rfl⟩ : ∃ below, left = below + 1 := ⟨left - 1, by omega⟩
  exact same.trans (run_moreOperators_stop below stops)

theorem ReadsWhole.chain
    (reads : tree.ReadsWhole (level + 1))
    (isLevel : level < Operator.levels) :
    tree.ReadsChain level := by
  intro depth behind enough stops uncast
  have nonempty := tree.length_pos
  have atMost : level < 10 := isLevel
  obtain ⟨below, rfl⟩ : ∃ below, depth = below + 1 := ⟨depth - 1, by omega⟩
  have first := reads below behind (by omega) stops uncast
  refine ⟨below, by omega, ?_⟩
  simp only [operators, isLevel, if_true]
  exact run_bind first rfl

/-- A tree that is read on a level is read on all levels below. -/
theorem ReadsWhole.of_le
    {lower : Nat}
    (reads : tree.ReadsWhole level)
    (below : lower ≤ level)
    (isLevel : level ≤ Operator.levels) :
    tree.ReadsWhole lower := by
  induction below with
  | refl => exact reads
  | step _ inductionHypothesis =>
      exact inductionHypothesis ((reads.chain isLevel).whole isLevel) (Nat.le_of_succ_le isLevel)

/-- An operand is read on the level above all operators. -/
theorem readsWhole_operand (single : Operand) :
    (operand single).ReadsWhole Operator.levels := by
  intro depth behind enough stops uncast
  have nonempty := single.length_pos
  have few : 32 * single.tokens.length ≤ depth + 12 := enough
  obtain ⟨below, rfl⟩ : ∃ below, depth = below + 3 := ⟨depth - 3, by omega⟩
  obtain ⟨noOperator, noStep, noAwait, _⟩ := single.starts behind
  have isUnary : operators (below + 3) Operator.levels = unary (below + 2) := rfl
  rw [isUnary]
  refine (run_unary_primary noOperator noStep noAwait (uncast behind rfl)
    (single.run_primary (by omega) behind)).trans ?_
  exact run_suffixes_stop below (stops.mono (by decide))

/-- Operators join what binds more tightly, and on their left what binds alike. -/
theorem ReadsChain.node
    {left right : OperatorTree}
    {sign : Sign}
    (readsLeft : left.ReadsChain sign.op.level)
    (readsRight : right.ReadsWhole (sign.op.level + 1)) :
    (OperatorTree.node left sign right).ReadsChain sign.op.level := by
  intro depth behind enough stops uncast
  have isLevel : sign.op.level < 10 := sign.op.level_lt
  have size :
      (OperatorTree.node left sign right).tokens.length =
        left.tokens.length + right.tokens.length + 1 := by
    simp [tokens, Nat.add_assoc]
  obtain ⟨above, atMost, same⟩ :=
    readsLeft depth (sign.token :: (right.tokens ++ behind)) (by omega)
      (by rw [kindOf_cons, sign.isMark]; exact .of_operator sign.op) uncast.1
  obtain ⟨below, rfl⟩ : ∃ below, above = below + 1 := ⟨above - 1, by omega⟩
  have read := readsRight below behind (by omega) stops uncast.2
  have found : Operator.ofToken? sign.op.level (.punct sign.op.mark) = some sign.op := by
    simp [Operator.ofToken?, Operator.ofMark?_mark]
  refine ⟨below, by omega, ?_⟩
  simp only [tokens, List.append_assoc, List.cons_append]
  refine same.trans (run_bind rfl ?_)
  simp only [kindOf_cons, sign.isMark, found]
  exact run_bind (run_skip sign.isMark rfl) (run_bind read rfl)

/-- Above all operators stands nothing but an operand. -/
theorem readsWhole_of_chain
    (isLevel : level ≤ Operator.levels)
    (atRoot : ∀ root ∈ tree.rootLevel?, level ≤ root)
    (chain : level < Operator.levels → tree.ReadsChain level) :
    tree.ReadsWhole level := by
  by_cases below : level < Operator.levels
  · exact (chain below).whole below
  · obtain rfl : level = Operator.levels := by omega
    cases tree with
    | operand single => exact readsWhole_operand single
    | node left sign right => exact absurd (atRoot _ rfl) (Nat.not_le.mpr sign.op.level_lt)

/-- A grouped tree is read as a chain of every level that is not above its root. -/
theorem Grouped.chain
    (grouped : tree.Grouped)
    (isLevel : level < Operator.levels)
    (atRoot : ∀ root ∈ tree.rootLevel?, level ≤ root) :
    tree.ReadsChain level := by
  induction tree generalizing level with
  | operand single =>
      exact ((readsWhole_operand single).of_le isLevel (Nat.le_refl _)).chain isLevel
  | node left sign right inductionLeft inductionRight =>
      obtain ⟨groupedLeft, groupedRight, leftRoot, rightRoot⟩ := grouped
      have onLevel : sign.op.level < Operator.levels := sign.op.level_lt
      have readsLeft := inductionLeft groupedLeft onLevel leftRoot
      have readsRight : right.ReadsWhole (sign.op.level + 1) :=
        readsWhole_of_chain onLevel rightRoot fun below =>
          inductionRight groupedRight below rightRoot
      have here := readsLeft.node readsRight
      obtain same | lower := Nat.eq_or_lt_of_le (atRoot _ rfl)
      · rw [same]
        exact here
      · exact ((here.whole onLevel).of_le lower (Nat.le_of_lt onLevel)).chain isLevel

/-- A grouped tree is read as an expression. -/
theorem Grouped.run_expression
    {behind : List Token}
    {depth : Nat}
    (grouped : tree.Grouped)
    (uncast : tree.Uncast (kindOf behind))
    (stops : Stops 0 (kindOf behind))
    (enough : 32 * tree.tokens.length ≤ depth) :
    (expression depth).run (tree.tokens ++ behind) = .ok (tree.expr, behind) := by
  have nonempty := tree.length_pos
  have isLevel : 0 < Operator.levels := by decide
  have reads := (grouped.chain isLevel fun _ _ => Nat.zero_le _).whole isLevel
  obtain ⟨below, rfl⟩ : ∃ below, depth = below + 2 := ⟨depth - 2, by omega⟩
  have chosen :
      (conditional (below + 1)).run (tree.tokens ++ behind) = .ok (tree.expr, behind) := by
    refine run_bind (reads below behind (by omega) (stops.mono (by omega)) uncast) ?_
    exact run_bind (run_takes_other (stops.conditional (by omega))) rfl
  refine run_bind chosen (run_bind rfl ?_)
  simp only [stops.assignment rfl]
  rfl

end OperatorTree

section Casts

/-- A name is an operand. -/
def Operand.ofName
    (token : Token)
    (word : String)
    (isName : token.kind = .name word) :
    Operand where
  tokens := [token]
  expr := .name token.line word
  reads := by
    refine ⟨1, [], run_bind rfl (run_bind rfl (run_bind (run_skip isName rfl) ?_))⟩
    simp only [List.append_nil, kindOf_cons, isName]
    rfl

/-- A name in front of what cannot follow it is a whole expression. -/
theorem run_expression_name
    {token : Token}
    {word : String}
    {behind : List Token}
    {depth : Nat}
    (isName : token.kind = .name word)
    (stops : Stops 0 (kindOf behind))
    (enough : 32 ≤ depth) :
    (expression depth).run (token :: behind) = .ok (.name token.line word, behind) := by
  let single := Operand.ofName token word isName
  have uncast : (OperatorTree.operand single).Uncast (kindOf behind) :=
    fun others _ => castAhead?_other (by change token.kind.isPunct _ = _; rw [isName]; rfl)
  exact @OperatorTree.Grouped.run_expression (.operand single) behind depth trivial uncast stops
    enough

/-- Names in front of a parenthesis are read as an expression only if there is just one. -/
theorem alone_of_run_expression
    {named closing closingToo : Token}
    {others after behind : List Token}
    {word : String}
    {words : List String}
    {depth : Nat}
    {value : Expr}
    (isName : named.kind = .name word)
    (areNames : others.map Token.kind = words.map .name)
    (isClosing : closing.kind = .punct .rightParen)
    (isClosingToo : closingToo.kind = .punct .rightParen)
    (ran :
      (expression depth).run (named :: (others ++ closing :: after)) =
        .ok (value, closingToo :: behind)) :
    others = [] ∧ closing :: after = closingToo :: behind := by
  -- The next token is a name or the parenthesis, and neither of them goes on with a name.
  obtain ⟨stops, closes⟩ :
      Stops 0 (kindOf (others ++ closing :: after)) ∧
        ((kindOf (others ++ closing :: after)) = .punct .rightParen → others = []) := by
    cases others with
    | nil =>
        rw [List.nil_append, kindOf_cons, isClosing]
        exact ⟨.of_mark (by simp) 0, fun _ => rfl⟩
    | cons other others =>
        cases words with
        | nil => contradiction
        | cons otherWord words =>
            rw [List.cons_append, kindOf_cons, (List.cons.inj areNames).1]
            exact ⟨⟨fun _ => rfl, fun _ => rfl, fun _ _ => rfl, fun _ => ⟨rfl, rfl, rfl, rfl⟩⟩,
              nofun⟩
  obtain ⟨taken, whole, _, again⟩ :=
    (expressionsReread depth).expression (32 * (others.length + after.length + 3)) _ _ _ trivial ran
  have few : taken.length ≤ others.length + after.length + 2 := by
    have sameLength := congrArg List.length whole
    simp only [List.length_cons, List.length_append] at sameLength
    omega
  have reread := again (closingToo :: behind) (by omega) fun _ => rfl
  rw [← whole, run_expression_name isName stops (by omega)] at reread
  have sameBehind : others ++ closing :: after = closingToo :: behind :=
    congrArg Prod.snd (Except.ok.inj reread)
  have alone : others = [] := closes (by rw [sameBehind, kindOf_cons, isClosingToo])
  rw [alone] at sameBehind
  exact ⟨alone, sameBehind⟩

/-- Whether an operand is the name of a type in parentheses. -/
def Operand.isTypeName (operand : Operand) : Bool :=
  match operand.tokens.map Token.kind with
  | [.punct .leftParen, .name word, .punct .rightParen] => (castKind? [word]).isSome
  | _ => false

/-- A cast is ahead only of a type name in parentheses, in front of another operand. -/
theorem Operand.isTypeName_of_castAhead?
    {operand : Operand}
    {behind after : List Token}
    {kind : CastKind}
    (ahead : castAhead? (operand.tokens ++ behind) = some (kind, after)) :
    operand.isTypeName = true ∧ startsOperand (kindOf behind) = true := by
  obtain ⟨opening, names, closing, words, whole, isOpening, areNames, isClosing, isType,
    isStart⟩ := exists_of_castAhead? ahead
  have opens : (kindOf (operand.tokens ++ behind)).isPunct .leftParen = true := by
    rw [whole, kindOf_cons, isOpening]
    rfl
  have ran : (primary (32 * operand.tokens.length)).run (operand.tokens ++ behind) =
      .ok (operand.expr, behind) :=
    operand.run_primary (by omega) behind
  obtain ⟨_, inner, closingToo, below, wholeToo, isClosingToo, ranInner⟩ :=
    (expressionsReread _).closes _ _ _ opens ran
  rw [← (List.cons.inj (whole.symm.trans wholeToo)).2] at ranInner
  cases names with
  | nil =>
      cases List.map_eq_nil_iff.mp areNames.symm
      contradiction
  | cons named others =>
      cases words with
      | nil => contradiction
      | cons word words =>
          obtain ⟨isName, areNames⟩ := List.cons.inj areNames
          obtain ⟨rfl, sameBehind⟩ :=
            alone_of_run_expression isName areNames isClosing isClosingToo ranInner
          obtain ⟨rfl, rfl⟩ := List.cons.inj sameBehind
          cases List.map_eq_nil_iff.mp areNames.symm
          have isTokens : operand.tokens = [opening, named, closing] :=
            List.append_cancel_right whole
          refine ⟨?_, isStart⟩
          unfold Operand.isTypeName
          simp only [isTokens, List.map_cons, List.map_nil, isOpening, isName, isClosing, isType,
            Option.isSome_some]

/-- No type name in parentheses stands in front of a plus or a minus. -/
def NoCast : Operand → List (Sign × Operand) → Prop
  | _, [] => True
  | single, (sign, next) :: rest =>
      (single.isTypeName = true → sign.op ≠ .binary .add ∧ sign.op ≠ .binary .sub) ∧
        NoCast next rest

/-- No cast is ahead of the operands of a sequence in front of a token of a kind. -/
def UncastIn (kind : TokenKind) : Operand → List (Sign × Operand) → Prop
  | single, [] => single.Uncast kind
  | single, (sign, next) :: rest => single.Uncast sign.token.kind ∧ UncastIn kind next rest

theorem Operand.uncast_of
    {operand : Operand}
    {kind : TokenKind}
    (plain : operand.isTypeName = true → startsOperand kind = false) :
    operand.Uncast kind := by
  intro behind isKind
  cases ahead : castAhead? (operand.tokens ++ behind) with
  | none => rfl
  | some found =>
      obtain ⟨isType, isStart⟩ := isTypeName_of_castAhead? ahead
      rw [isKind, plain isType] at isStart
      contradiction

/-- Of the operators only plus and minus can start another operand. -/
theorem Sign.startsOperand_eq_false
    {sign : Sign}
    (other : sign.op ≠ .binary .add ∧ sign.op ≠ .binary .sub) :
    startsOperand sign.token.kind = false := by
  rw [sign.isMark]
  generalize sign.op = op at other
  rcases op with op | op <;> cases op <;> first | rfl | simp at other

theorem NoCast.uncastIn
    {first : Operand}
    {rest : List (Sign × Operand)}
    {kind : TokenKind}
    (noCast : NoCast first rest)
    (ends : startsOperand kind = false) :
    UncastIn kind first rest := by
  induction rest generalizing first with
  | nil => exact Operand.uncast_of fun _ => ends
  | cons next rest inductionHypothesis =>
      obtain ⟨plain, others⟩ := noCast
      exact ⟨Operand.uncast_of fun isType => Sign.startsOperand_eq_false (plain isType),
        inductionHypothesis others⟩

theorem UncastIn.append
    {first next : Operand}
    {before after : List (Sign × Operand)}
    {sign : Sign}
    {kind : TokenKind}
    (uncast : UncastIn kind first (before ++ (sign, next) :: after)) :
    UncastIn sign.token.kind first before ∧ UncastIn kind next after := by
  induction before generalizing first with
  | nil => exact uncast
  | cons middle before inductionHypothesis =>
      obtain ⟨here, later⟩ := uncast
      obtain ⟨front, back⟩ := inductionHypothesis later
      exact ⟨⟨here, front⟩, back⟩

theorem OperatorTree.uncast_of
    {tree : OperatorTree}
    {kind : TokenKind}
    (uncast : UncastIn kind tree.first tree.rest) :
    tree.Uncast kind := by
  induction tree generalizing kind with
  | operand single => exact uncast
  | node left sign right inductionLeft inductionRight =>
      obtain ⟨front, back⟩ := UncastIn.append uncast
      exact ⟨inductionLeft front, inductionRight back⟩

end Casts

/-- An expression with a semicolon behind it is a program. -/
theorem parseTokens_of_expression
    {tokens : List Token}
    {semicolon ending : Token}
    {expr : Expr}
    (isSemicolon : semicolon.kind = .punct .semicolon)
    (isEnding : ending.kind = .endOfInput)
    (starts : startsOperand (kindOf tokens) = true)
    (reads :
      ∀ depth,
        32 * tokens.length ≤ depth →
        (expression depth).run (tokens ++ [semicolon, ending]) =
          .ok (expr, [semicolon, ending])) :
    parseTokens (tokens ++ [semicolon, ending]) = .ok ⟨[.expr expr]⟩ := by
  have sameKind : kindOf (tokens ++ [semicolon, ending]) = kindOf tokens := by
    cases tokens with
    | nil => contradiction
    | cons token tokens => rfl
  have notEnd : (kindOf tokens).isEnd = false := by
    cases isKind : kindOf tokens <;> rw [isKind] at starts <;> first | rfl | contradiction
  have enough :
      32 * tokens.length + 3 ≤ depthPerToken * ((tokens ++ [semicolon, ending]).length + 1) := by
    simp only [List.length_append, List.length_cons, depthPerToken]
    omega
  unfold parseTokens
  generalize depthPerToken * ((tokens ++ [semicolon, ending]).length + 1) = depth at enough
  obtain ⟨below, rfl⟩ : ∃ below, depth = below + 3 := ⟨depth - 3, by omega⟩
  have first :
      (statement (below + 2)).run (tokens ++ [semicolon, ending]) = .ok (.expr expr, [ending]) :=
    run_statement_of_startsOperand (sameKind ▸ starts)
      (run_bind (reads (below + 1) (by omega)) (run_bind (run_expect isSemicolon _) rfl))
  have last : (program (below + 2)).run [ending] = .ok ([], [ending]) := by
    refine run_bind rfl ?_
    simp only [kindOf_cons, isEnding]
    rfl
  have whole :
      (program (below + 3)).run (tokens ++ [semicolon, ending]) = .ok ([.expr expr], [ending]) := by
    refine run_bind rfl ?_
    simp only [sameKind, notEnd]
    exact run_bind first (run_bind last rfl)
  rw [whole]

/--
Operands and the operators between them are read as one tree: the only one with the same
operands and operators in the same order in which operators of one level are grouped to the
left and those of a higher level bind more tightly.
-/
theorem parseTokens_joined
    (first : Operand)
    (rest : List (Sign × Operand))
    (noCast : NoCast first rest) :
    ∃ tree : OperatorTree,
      (tree.first = first ∧ tree.rest = rest ∧ tree.Grouped) ∧
        (∀ other : OperatorTree,
          other.first = first → other.rest = rest → other.Grouped → other = tree) ∧
        (∀ depth behind,
          32 * (joined first rest).length ≤ depth →
          Stops 0 (kindOf behind) →
          startsOperand (kindOf behind) = false →
          (expression depth).run (joined first rest ++ behind) = .ok (tree.expr, behind)) ∧
        ∀ semicolon ending,
          semicolon.kind = .punct .semicolon →
          ending.kind = .endOfInput →
          parseTokens (joined first rest ++ [semicolon, ending]) = .ok ⟨[.expr tree.expr]⟩ := by
  obtain ⟨sameFirst, sameRest, grouped⟩ := OperatorTree.ofSequence_reads first rest
  generalize OperatorTree.ofSequence first rest = tree at sameFirst sameRest grouped
  have isTokens : joined first rest = tree.tokens := by
    rw [tree.tokens_eq, sameFirst, sameRest]
  have reads :
      ∀ depth behind,
        32 * (joined first rest).length ≤ depth →
        Stops 0 (kindOf behind) →
        startsOperand (kindOf behind) = false →
        (expression depth).run (joined first rest ++ behind) = .ok (tree.expr, behind) := by
    intro depth behind enough stops ends
    rw [isTokens] at enough ⊢
    have uncast := noCast.uncastIn ends
    rw [← sameFirst, ← sameRest] at uncast
    exact grouped.run_expression (OperatorTree.uncast_of uncast) stops enough
  refine ⟨tree, ⟨sameFirst, sameRest, grouped⟩, ?_, reads, ?_⟩
  · intro other otherFirst otherRest groupedOther
    exact groupedOther.unique grouped (otherFirst.trans sameFirst.symm)
      (otherRest.trans sameRest.symm)
  · intro semicolon ending isSemicolon isEnding
    have starts : startsOperand (kindOf (joined first rest)) = true :=
      (first.starts _).2.2.2
    refine parseTokens_of_expression isSemicolon isEnding starts fun depth enough => ?_
    refine reads depth _ enough ?_ ?_ <;> rw [kindOf_cons, isSemicolon]
    · exact .of_mark (by simp) 0
    · rfl

/-- A difference of a difference, with a product in between. -/
theorem parseTokens_joined_of_differences :
    ∃ (first : Operand) (rest : List (Sign × Operand)) (semicolon ending : Token)
      (tree : OperatorTree),
      tokenize "a-b*c-d;".toList = .ok (joined first rest ++ [semicolon, ending]) ∧
        NoCast first rest ∧
        tree.first = first ∧ tree.rest = rest ∧ tree.Grouped ∧
        parseTokens (joined first rest ++ [semicolon, ending]) = .ok ⟨[.expr tree.expr]⟩ := by
  let text := "a-b*c-d;".toList
  let token (kind : TokenKind) (place : Nat) : Token :=
    ⟨kind, 1, text.drop place, text.drop (place + 1)⟩
  let first := Operand.ofName (token (.name "a") 0) "a" rfl
  let rest : List (Sign × Operand) := [
    (⟨token (.punct .minus) 1, .binary .sub, rfl⟩, .ofName (token (.name "b") 2) "b" rfl),
    (⟨token (.punct .star) 3, .binary .mul, rfl⟩, .ofName (token (.name "c") 4) "c" rfl),
    (⟨token (.punct .minus) 5, .binary .sub, rfl⟩, .ofName (token (.name "d") 6) "d" rfl)]
  have noCast : NoCast first rest := ⟨nofun, nofun, nofun, trivial⟩
  obtain ⟨tree, ⟨sameFirst, sameRest, grouped⟩, _, _, parsed⟩ :=
    parseTokens_joined first rest noCast
  exact ⟨first, rest, token (.punct .semicolon) 7, token .endOfInput 8, tree, rfl, noCast,
    sameFirst, sameRest, grouped, parsed _ _ rfl rfl⟩

/-- A type name in parentheses in front of a minus makes a cast, and no tree of the difference. -/
theorem cast_in_front_of_minus :
    ∃ (first last : Operand) (sign : Sign) (semicolon ending : Token),
      tokenize "(int)-1;".toList = .ok (joined first [(sign, last)] ++ [semicolon, ending]) ∧
        sign.op = .binary .sub ∧
        ∀ tree : OperatorTree,
          tree.first = first →
          tree.rest = [(sign, last)] →
          parseTokens (joined first [(sign, last)] ++ [semicolon, ending]) ≠
            .ok ⟨[.expr tree.expr]⟩ := by
  let text := "(int)-1;".toList
  let token (kind : TokenKind) (place after : Nat) : Token :=
    ⟨kind, 1, text.drop place, text.drop after⟩
  let first : Operand :=
    ⟨[token (.punct .leftParen) 0 1, token (.name "int") 1 4, token (.punct .rightParen) 4 5],
      .name 1 "int", 32, [], rfl⟩
  let last : Operand := ⟨[token (.int 1) 6 7], .int 1 1, 1, [], rfl⟩
  let sign : Sign := ⟨token (.punct .minus) 5 6, .binary .sub, rfl⟩
  let semicolon := token (.punct .semicolon) 7 8
  let ending := token .endOfInput 8 8
  have parsed :
      parseTokens (joined first [(sign, last)] ++ [semicolon, ending]) =
        .ok ⟨[.expr (.cast 1 (.int .bits32 true) (.unary 1 .neg (.int 1 1)))]⟩ :=
    rfl
  refine ⟨first, last, sign, semicolon, ending, rfl, rfl, fun tree _ sameRest isTree => ?_⟩
  rw [parsed] at isTree
  cases tree with
  | operand single => cases sameRest
  | node left root right =>
      rcases root with ⟨_, op | op, _⟩ <;> cases isTree

end LedSketch.Script
