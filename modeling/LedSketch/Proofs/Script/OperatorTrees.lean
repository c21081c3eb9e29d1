import LedSketch.Proofs.Script.Rereading

namespace LedSketch.Script

/-!
# Trees of operators

Operands and the operators between them can be joined to many trees that have the same
operands and operators in the same order.  Just one of them groups operators of one level
to the left and lets those of a higher level bind more tightly.
-/

/-- Tokens that are read as a primary operand: a literal, a name, or one in brackets. -/
structure Operand where
  tokens : List Token
  expr : Expr
  reads : ∃ depth behind, (Parser.primary depth).run (tokens ++ behind) = .ok (expr, behind)

/-- A token that stands for an operator between two operands. -/
structure Sign where
  token : Token
  op : Operator
  isMark : token.kind = .punct op.mark

/-- Operators joined with their operands. -/
inductive OperatorTree where
  | operand (operand : Operand)
  | node (left : OperatorTree) (sign : Sign) (right : OperatorTree)

/-- The tokens of operands and of the operators between them. -/
def joined
    (first : Operand)
    (rest : List (Sign × Operand)) :
    List Token :=
  first.tokens ++ rest.flatMap fun next => next.1.token :: next.2.tokens

namespace OperatorTree

/-- The leftmost operand of a tree. -/
def first : OperatorTree → Operand
  | .operand single => single
  | .node left _ _ => left.first

/-- The operators of a tree from left to right, each with the operand behind it. -/
def rest : OperatorTree → List (Sign × Operand)
  | .operand _ => []
  | .node left sign right => left.rest ++ (sign, right.first) :: right.rest

/-- The tokens of a tree. -/
def tokens : OperatorTree → List Token
  | .operand single => single.tokens
  | .node left sign right => left.tokens ++ sign.token :: right.tokens

/-- The expression that the operators make of the operands. -/
def expr : OperatorTree → Expr
  | .operand single => single.expr
  | .node left sign right => sign.op.apply left.expr right.expr

/-- The level of the operator at the root, if there is one. -/
def rootLevel? : OperatorTree → Option Nat
  | .operand _ => none
  | .node _ sign _ => some sign.op.level

/-- Every operator binds less tightly than one on its right, and no more than one on its left. -/
def Grouped : OperatorTree → Prop
  | .operand _ => True
  | .node left sign right =>
      left.Grouped ∧ right.Grouped ∧
        (∀ level ∈ left.rootLevel?, sign.op.level ≤ level) ∧
          ∀ level ∈ right.rootLevel?, sign.op.level < level

theorem tokens_eq (tree : OperatorTree) : tree.tokens = joined tree.first tree.rest := by
  unfold joined
  induction tree with
  | operand operand => simp [tokens, first, rest]
  | node left sign right inductionLeft inductionRight =>
      simp [tokens, first, rest, inductionLeft, inductionRight]

/-- No operator of a grouped tree binds less tightly than the one at its root. -/
theorem Grouped.level_le
    {tree : OperatorTree}
    {level : Nat}
    (grouped : tree.Grouped)
    (atRoot : ∀ root ∈ tree.rootLevel?, level ≤ root) :
    ∀ next ∈ tree.rest, level ≤ next.1.op.level := by
  induction tree generalizing level with
  | operand operand => simp [rest]
  | node left sign right inductionLeft inductionRight =>
      obtain ⟨groupedLeft, groupedRight, leftRoot, rightRoot⟩ := grouped
      have here : level ≤ sign.op.level := atRoot _ rfl
      simp only [rest, List.mem_append, List.mem_cons]
      rintro next (onLeft | rfl | onRight)
      · exact Nat.le_trans here (inductionLeft groupedLeft leftRoot next onLeft)
      · exact here
      · have above := inductionRight groupedRight (fun root isRoot =>
          Nat.le_of_lt (rightRoot root isRoot))
        exact Nat.le_trans here (above next onRight)

/-- The operator at the root is the last one of those that bind least tightly. -/
theorem Grouped.splits
    {left right : OperatorTree}
    {sign : Sign}
    (grouped : (node left sign right).Grouped) :
    (∀ next ∈ left.rest, sign.op.level ≤ next.1.op.level) ∧
      ∀ next ∈ right.rest, sign.op.level < next.1.op.level := by
  obtain ⟨groupedLeft, groupedRight, leftRoot, rightRoot⟩ := grouped
  exact ⟨groupedLeft.level_le leftRoot, groupedRight.level_le rightRoot⟩

/-- A list has at most one last element among those of the least level. -/
theorem split_unique
    {before after otherBefore otherAfter : List (Sign × Operand)}
    {next other : Sign × Operand}
    (whole : before ++ next :: after = otherBefore ++ other :: otherAfter)
    (least : ∀ earlier ∈ before, next.1.op.level ≤ earlier.1.op.level)
    (last : ∀ later ∈ after, next.1.op.level < later.1.op.level)
    (otherLeast : ∀ earlier ∈ otherBefore, other.1.op.level ≤ earlier.1.op.level)
    (otherLast : ∀ later ∈ otherAfter, other.1.op.level < later.1.op.level) :
    before = otherBefore ∧ next = other ∧ after = otherAfter := by
  obtain ⟨between, rfl, ends⟩ | ⟨between, rfl, ends⟩ := List.append_eq_append_iff.mp whole
  · cases between with
    | nil =>
        obtain ⟨rfl, rfl⟩ := List.cons.inj ends
        exact ⟨(List.append_nil _).symm, rfl, rfl⟩
    | cons middle between =>
        obtain ⟨rfl, rfl⟩ := List.cons.inj ends
        have notLooser := otherLeast next (by simp)
        have tighter := last other (by simp)
        omega
  · cases between with
    | nil =>
        obtain ⟨rfl, rfl⟩ := List.cons.inj ends
        exact ⟨List.append_nil _, rfl, rfl⟩
    | cons middle between =>
        obtain ⟨rfl, rfl⟩ := List.cons.inj ends
        have notLooser := least other (by simp)
        have tighter := otherLast next (by simp)
        omega

/-- A grouped tree is determined by its operands and operators. -/
theorem Grouped.unique
    {tree other : OperatorTree}
    (grouped : tree.Grouped)
    (groupedOther : other.Grouped)
    (sameFirst : tree.first = other.first)
    (sameRest : tree.rest = other.rest) :
    tree = other := by
  induction tree generalizing other with
  | operand operand =>
      cases other with
      | operand otherOperand => exact congrArg _ sameFirst
      | node left sign right => simp [rest] at sameRest
  | node left sign right inductionLeft inductionRight =>
      cases other with
      | operand otherOperand => simp [rest] at sameRest
      | node otherLeft otherSign otherRight =>
          obtain ⟨least, last⟩ := grouped.splits
          obtain ⟨otherLeast, otherLast⟩ := groupedOther.splits
          obtain ⟨sameLeft, sameNext, sameRight⟩ :=
            split_unique sameRest least last otherLeast otherLast
          obtain ⟨rfl, sameMiddle⟩ := Prod.mk.inj sameNext
          rw [inductionLeft grouped.1 groupedOther.1 sameFirst sameLeft,
            inductionRight grouped.2.1 groupedOther.2.1 sameMiddle sameRight]

/-- The tree with one more operator and operand at its right end. -/
def extend
    (sign : Sign)
    (operand : Operand) :
    OperatorTree → OperatorTree
  | .operand first => .node (.operand first) sign (.operand operand)
  | .node left root right =>
      if root.op.level < sign.op.level then
        .node left root (right.extend sign operand)
      else
        .node (.node left root right) sign (.operand operand)

/-- The tree of operands and of the operators between them. -/
def ofSequence
    (first : Operand)
    (rest : List (Sign × Operand)) :
    OperatorTree :=
  rest.foldl (fun tree next => tree.extend next.1 next.2) (.operand first)

section Extend

variable {tree : OperatorTree} (sign : Sign) (operand : Operand)

theorem extend_reads (tree : OperatorTree) :
    (tree.extend sign operand).first = tree.first ∧
      (tree.extend sign operand).rest = tree.rest ++ [(sign, operand)] := by
  induction tree with
  | operand first => exact ⟨rfl, rfl⟩
  | node left root right inductionLeft inductionRight =>
      unfold extend
      split
      · simp [first, rest, inductionRight]
      · simp [first, rest]

/-- At the root of a longer tree stands its former operator or the new one. -/
theorem rootLevel?_extend
    (tree : OperatorTree)
    {level : Nat}
    (isRoot : level ∈ (tree.extend sign operand).rootLevel?) :
    level = sign.op.level ∨ level ∈ tree.rootLevel? := by
  cases tree with
  | operand first => exact .inl (Option.some.inj isRoot).symm
  | node left root right =>
      unfold extend at isRoot
      split at isRoot
      · exact .inr isRoot
      · exact .inl (Option.some.inj isRoot).symm

theorem Grouped.extend (grouped : tree.Grouped) : (tree.extend sign operand).Grouped := by
  induction tree with
  | operand first => simp [OperatorTree.extend, Grouped, rootLevel?]
  | node left root right inductionLeft inductionRight =>
      obtain ⟨groupedLeft, groupedRight, leftRoot, rightRoot⟩ := grouped
      unfold OperatorTree.extend
      split
      · next tighter =>
          refine ⟨groupedLeft, inductionRight groupedRight, leftRoot, fun level isRoot => ?_⟩
          obtain rfl | wasRoot := rootLevel?_extend sign operand right isRoot
          · exact tighter
          · exact rightRoot level wasRoot
      · next looser =>
          refine ⟨⟨groupedLeft, groupedRight, leftRoot, rightRoot⟩, trivial, ?_, nofun⟩
          rintro level ⟨⟩
          exact Nat.not_lt.mp looser

end Extend

theorem foldl_extend_reads
    (rest : List (Sign × Operand))
    {tree : OperatorTree}
    (grouped : tree.Grouped) :
    let longer := rest.foldl (fun tree next => tree.extend next.1 next.2) tree
    longer.first = tree.first ∧ longer.rest = tree.rest ++ rest ∧ longer.Grouped := by
  induction rest generalizing tree with
  | nil => exact ⟨rfl, (List.append_nil _).symm, grouped⟩
  | cons next others inductionHypothesis =>
      obtain ⟨sameFirst, longerRest⟩ := extend_reads next.1 next.2 tree
      obtain ⟨first, rest, groupedLonger⟩ := inductionHypothesis (grouped.extend next.1 next.2)
      exact ⟨first.trans sameFirst, by rw [List.foldl_cons, rest, longerRest]; simp,
        groupedLonger⟩

/-- The tree of a sequence reads like the sequence and is grouped. -/
theorem ofSequence_reads
    (first : Operand)
    (rest : List (Sign × Operand)) :
    (ofSequence first rest).first = first ∧
      (ofSequence first rest).rest = rest ∧ (ofSequence first rest).Grouped :=
  foldl_extend_reads rest trivial

end OperatorTree

end LedSketch.Script
