import LedSketch.Script.Operator

namespace LedSketch.Script

/-!
# Programs as tokens

A program is rendered as the tokens that spell it.  Parentheses stand around a part of an
expression only if the part binds less tightly than its place asks for, and braces stand
only where the program has a block, the body of a function or the cases of a `switch`.
-/

/-- Lists of tokens, with a comma between one and the next. -/
def commaSeparated (items : List (List TokenKind)) : List TokenKind :=
  [.punct .comma].intercalate items

@[simp]
theorem commaSeparated_nil : commaSeparated [] = [] :=
  rfl

@[simp]
theorem commaSeparated_singleton (item : List TokenKind) : commaSeparated [item] = item :=
  List.intercalate_singleton

@[simp]
theorem commaSeparated_cons_cons
    (item next : List TokenKind)
    (items : List (List TokenKind)) :
    commaSeparated (item :: next :: items) =
      item ++ .punct .comma :: commaSeparated (next :: items) := by
  simp [commaSeparated]

theorem commaSeparated_cons
    (item : List TokenKind)
    (items : List (List TokenKind)) :
    ∃ behind, commaSeparated (item :: items) = item ++ behind := by
  cases items with
  | nil => exact ⟨[], by simp⟩
  | cons next items => exact ⟨_, commaSeparated_cons_cons item next items⟩

/-- Tokens, in parentheses if they have to be. -/
def enclosedIf
    (needed : Bool)
    (kinds : List TokenKind) :
    List TokenKind :=
  if needed then .punct .leftParen :: (kinds ++ [.punct .rightParen]) else kinds

/-- The token of an operator in front of its operand. -/
def UnaryOp.mark : UnaryOp → Punct
  | .not => .bang
  | .neg => .minus
  | .plus => .plus
  | .bitNot => .tilde

/-- The token of a step. -/
def Step.mark : Step → Punct
  | .increment => .plusPlus
  | .decrement => .minusMinus

/-- The token of a plain assignment, or of one that is combined with an operator. -/
def assignmentMark : Option BinaryOp → Punct
  | none => .assign
  | some .add => .plusAssign
  | some .sub => .minusAssign
  | some .mul => .starAssign
  | some .div => .slashAssign
  | some .rem => .percentAssign
  | some .bitAnd => .ampAssign
  | some .bitOr => .pipeAssign
  | some .bitXor => .caretAssign
  | some .shiftLeft => .shiftLeftAssign
  | some .shiftRight => .shiftRightAssign
  -- No mark stands for an assignment combined with a comparison.
  | some _ => .assign

/-- The name of the type that a cast converts to. -/
def CastKind.typeName : CastKind → String
  | .int .bits8 false => "uint8_t"
  | .int .bits8 true => "int8_t"
  | .int .bits16 false => "uint16_t"
  | .int .bits16 true => "int16_t"
  | .int .bits32 false => "uint32_t"
  | .int .bits32 true => "int32_t"
  | .int .bits64 false => "uint64_t"
  | .int .bits64 true => "int64_t"
  | .float => "float"
  | .bool => "bool"

namespace Expr

/--
How tightly an expression binds: assignments and conditionals are on level zero, the
operators of two operands two above their own level, what has something in front of one
operand is on level thirteen, and the rest on level fourteen.
-/
def level : Expr → Nat
  | .assign .. => 0
  | .conditional .. => 0
  | .logical _ op _ _ => (Operator.logical op).level + 2
  | .binary _ op _ _ => (Operator.binary op).level + 2
  | .unary .. => 13
  | .update _ _ .before _ => 13
  | .cast .. => 13
  | .await .. => 13
  | _ => 14

mutual

/-- The tokens of an expression. -/
def spell : Expr → List TokenKind
  | .int _ value => [.int value]
  | .float _ value => [.float value]
  | .text _ value => [.text value]
  | .bool _ true => [.keyword .trueWord]
  | .bool _ false => [.keyword .falseWord]
  | .undefined _ => [.keyword .undefinedWord]
  | .name _ word => [.name word]
  | .array _ items =>
      .punct .leftBracket :: (commaSeparated (spellEach items) ++ [.punct .rightBracket])
  | .unary _ op operand =>
      .punct op.mark :: enclosedIf (operand.level < 13) operand.spell
  | .binary _ op left right =>
      enclosedIf (left.level < (Operator.binary op).level + 2) left.spell ++
        .punct (Operator.binary op).mark ::
          enclosedIf (right.level < (Operator.binary op).level + 3) right.spell
  | .logical _ op left right =>
      enclosedIf (left.level < (Operator.logical op).level + 2) left.spell ++
        .punct (Operator.logical op).mark ::
          enclosedIf (right.level < (Operator.logical op).level + 3) right.spell
  | .conditional _ test whenTrue whenFalse =>
      enclosedIf (test.level < 2) test.spell ++
        .punct .question :: (whenTrue.spell ++ .punct .colon :: whenFalse.spell)
  | .assign _ op target value =>
      enclosedIf (target.level < 14) target.spell ++ .punct (assignmentMark op) :: value.spell
  | .update _ step .before target =>
      .punct step.mark :: enclosedIf (target.level < 13) target.spell
  | .update _ step .after target =>
      enclosedIf (target.level < 14) target.spell ++ [.punct step.mark]
  | .cast _ kind operand =>
      .punct .leftParen :: .name kind.typeName :: .punct .rightParen ::
        enclosedIf (operand.level < 13) operand.spell
  | .await _ operand =>
      .keyword .awaitWord :: enclosedIf (operand.level < 13) operand.spell
  | .call _ callee arguments =>
      enclosedIf (callee.level < 14) callee.spell ++
        .punct .leftParen :: (commaSeparated (spellEach arguments) ++ [.punct .rightParen])
  | .member _ object word =>
      enclosedIf (object.level < 14) object.spell ++ [.punct .dot, .name word]
  | .index _ object position =>
      enclosedIf (object.level < 14) object.spell ++
        .punct .leftBracket :: (position.spell ++ [.punct .rightBracket])

/-- The tokens of each of some expressions. -/
def spellEach : List Expr → List (List TokenKind)
  | [] => []
  | item :: items => item.spell :: spellEach items

end

/-- The tokens of an expression in a place that asks for a level. -/
def spellAt
    (required : Nat)
    (expr : Expr) :
    List TokenKind :=
  enclosedIf (expr.level < required) expr.spell

theorem spellEach_eq_map (items : List Expr) : spellEach items = items.map spell := by
  induction items with
  | nil => rfl
  | cons item items inductionHypothesis => simp [spellEach, inductionHypothesis]

mutual

/-- An expression with all its parts on one line. -/
def onLine (line : Nat) : Expr → Expr
  | .int _ value => .int line value
  | .float _ value => .float line value
  | .text _ value => .text line value
  | .bool _ value => .bool line value
  | .undefined _ => .undefined line
  | .name _ word => .name line word
  | .array _ items => .array line (onLineEach line items)
  | .unary _ op operand => .unary line op (operand.onLine line)
  | .binary _ op left right => .binary line op (left.onLine line) (right.onLine line)
  | .logical _ op left right => .logical line op (left.onLine line) (right.onLine line)
  | .conditional _ test whenTrue whenFalse =>
      .conditional line (test.onLine line) (whenTrue.onLine line) (whenFalse.onLine line)
  | .assign _ op target value => .assign line op (target.onLine line) (value.onLine line)
  | .update _ step fixity target => .update line step fixity (target.onLine line)
  | .cast _ kind operand => .cast line kind (operand.onLine line)
  | .await _ operand => .await line (operand.onLine line)
  | .call _ callee arguments => .call line (callee.onLine line) (onLineEach line arguments)
  | .member _ object word => .member line (object.onLine line) word
  | .index _ object position => .index line (object.onLine line) (position.onLine line)

/-- Expressions with all their parts on one line. -/
def onLineEach (line : Nat) : List Expr → List Expr
  | [] => []
  | item :: items => item.onLine line :: onLineEach line items

end

theorem onLineEach_eq_map
    (line : Nat)
    (items : List Expr) :
    onLineEach line items = items.map (onLine line) := by
  induction items with
  | nil => rfl
  | cons item items inductionHypothesis => simp [onLineEach, inductionHypothesis]

@[simp]
theorem line_onLine
    (line : Nat)
    (expr : Expr) :
    (expr.onLine line).line = line := by
  cases expr <;> simp [onLine, Expr.line]

@[simp]
theorem isTarget_onLine
    (line : Nat)
    (expr : Expr) :
    (expr.onLine line).isTarget = expr.isTarget := by
  cases expr <;> simp [onLine, isTarget]

end Expr

/-- The tokens of a value behind an equals sign, if there is one. -/
def spellInit : Option Expr → List TokenKind
  | none => []
  | some value => .punct .assign :: value.spell

/-- The tokens of a variable that is declared. -/
def Declarator.spell (declarator : Declarator) : List TokenKind :=
  .name declarator.name :: spellInit declarator.init

/-- A variable with its value on one line. -/
def Declarator.onLine
    (line : Nat)
    (declarator : Declarator) :
    Declarator :=
  ⟨declarator.name, declarator.init.map (Expr.onLine line)⟩

/-- The tokens of a parameter. -/
def Parameter.spell (parameter : Parameter) : List TokenKind :=
  .name parameter.name :: spellInit parameter.default

/-- A parameter with its value on one line. -/
def Parameter.onLine
    (line : Nat)
    (parameter : Parameter) :
    Parameter :=
  ⟨parameter.name, parameter.default.map (Expr.onLine line)⟩

/-- The tokens of an expression that may be missing. -/
def spellOptional : Option Expr → List TokenKind
  | none => []
  | some value => value.spell

/-- The tokens of a declaration, without the semicolon behind it. -/
def spellDeclaration (declarators : List Declarator) : List TokenKind :=
  .keyword .letWord :: commaSeparated (declarators.map Declarator.spell)

namespace ForInit

/-- The tokens of the first clause of a counting loop. -/
def spell : ForInit → List TokenKind
  | .nothing => []
  | .declare _ declarators => spellDeclaration declarators
  | .expr value => value.spell

/-- The first clause of a counting loop on one line. -/
def onLine (line : Nat) : ForInit → ForInit
  | .nothing => .nothing
  | .declare _ declarators => .declare line (declarators.map (Declarator.onLine line))
  | .expr value => .expr (value.onLine line)

end ForInit

/-- The tokens of a condition. -/
def spellCondition (test : Expr) : List TokenKind :=
  .punct .leftParen :: (test.spell ++ [.punct .rightParen])

/-- The tokens that head a case. -/
def spellCaseTest : Option Expr → List TokenKind
  | none => [.keyword .defaultWord]
  | some value => .keyword .caseWord :: value.spell

mutual

/-- The tokens of a statement. -/
def Stmt.spell : Stmt → List TokenKind
  | .declare _ declarators => spellDeclaration declarators ++ [.punct .semicolon]
  | .function _ name parameters body =>
      .keyword .functionWord :: .name name :: .punct .leftParen ::
        (commaSeparated (parameters.map Parameter.spell) ++
          .punct .rightParen :: .punct .leftBrace ::
            (Stmt.spellAll body ++ [.punct .rightBrace]))
  | .expr value => value.spell ++ [.punct .semicolon]
  | .block body => .punct .leftBrace :: (Stmt.spellAll body ++ [.punct .rightBrace])
  | .branch test whenTrue whenFalse =>
      .keyword .ifWord ::
        (spellCondition test ++ (whenTrue.spell ++ Stmt.spellElse whenFalse))
  | .whileLoop test body => .keyword .whileWord :: (spellCondition test ++ body.spell)
  | .doLoop body test =>
      .keyword .doWord ::
        (body.spell ++ .keyword .whileWord :: (spellCondition test ++ [.punct .semicolon]))
  | .forLoop init test steps body =>
      .keyword .forWord :: .punct .leftParen ::
        (init.spell ++ .punct .semicolon ::
          (spellOptional test ++ .punct .semicolon ::
            (commaSeparated (steps.map Expr.spell) ++ .punct .rightParen :: body.spell)))
  | .switch discriminant cases =>
      .keyword .switchWord ::
        (spellCondition discriminant ++
          .punct .leftBrace :: (SwitchCase.spellAll cases ++ [.punct .rightBrace]))
  | .returns _ value =>
      .keyword .returnWord :: (spellOptional value ++ [.punct .semicolon])
  | .breaks _ => [.keyword .breakWord, .punct .semicolon]
  | .continues _ => [.keyword .continueWord, .punct .semicolon]
  | .empty => [.punct .semicolon]

/-- The tokens of the other branch, if there is one. -/
def Stmt.spellElse : Option Stmt → List TokenKind
  | none => []
  | some stmt => .keyword .elseWord :: stmt.spell

/-- The tokens of statements, one after the other. -/
def Stmt.spellAll : List Stmt → List TokenKind
  | [] => []
  | stmt :: stmts => stmt.spell ++ Stmt.spellAll stmts

/-- The tokens of a case. -/
def SwitchCase.spell : SwitchCase → List TokenKind
  | .mk test body => spellCaseTest test ++ .punct .colon :: Stmt.spellAll body

/-- The tokens of cases, one after the other. -/
def SwitchCase.spellAll : List SwitchCase → List TokenKind
  | [] => []
  | case :: cases => case.spell ++ SwitchCase.spellAll cases

end

mutual

/-- Whether a statement ends with a branch that an `else` behind it would go on with. -/
def Stmt.isOpen : Stmt → Bool
  | .branch _ _ whenFalse => Stmt.isOpenElse whenFalse
  | .whileLoop _ body => body.isOpen
  | .forLoop _ _ _ body => body.isOpen
  | _ => false

/-- Whether an `else` could stand behind the other branch, or in its place. -/
def Stmt.isOpenElse : Option Stmt → Bool
  | none => true
  | some stmt => stmt.isOpen

end

mutual

/-- A statement with all its parts on one line. -/
def Stmt.onLine (line : Nat) : Stmt → Stmt
  | .declare _ declarators => .declare line (declarators.map (Declarator.onLine line))
  | .function _ name parameters body =>
      .function line name (parameters.map (Parameter.onLine line)) (Stmt.onLineEach line body)
  | .expr value => .expr (value.onLine line)
  | .block body => .block (Stmt.onLineEach line body)
  | .branch test whenTrue whenFalse =>
      .branch (test.onLine line) (whenTrue.onLine line) (Stmt.onLineElse line whenFalse)
  | .whileLoop test body => .whileLoop (test.onLine line) (body.onLine line)
  | .doLoop body test => .doLoop (body.onLine line) (test.onLine line)
  | .forLoop init test steps body =>
      .forLoop (init.onLine line) (test.map (Expr.onLine line))
        (steps.map (Expr.onLine line)) (body.onLine line)
  | .switch discriminant cases =>
      .switch (discriminant.onLine line) (SwitchCase.onLineEach line cases)
  | .returns _ value => .returns line (value.map (Expr.onLine line))
  | .breaks _ => .breaks line
  | .continues _ => .continues line
  | .empty => .empty

/-- The other branch, if there is one, with all its parts on one line. -/
def Stmt.onLineElse (line : Nat) : Option Stmt → Option Stmt
  | none => none
  | some stmt => some (stmt.onLine line)

/-- Statements with all their parts on one line. -/
def Stmt.onLineEach (line : Nat) : List Stmt → List Stmt
  | [] => []
  | stmt :: stmts => stmt.onLine line :: Stmt.onLineEach line stmts

/-- A case with all its parts on one line. -/
def SwitchCase.onLine (line : Nat) : SwitchCase → SwitchCase
  | .mk test body => .mk (test.map (Expr.onLine line)) (Stmt.onLineEach line body)

/-- Cases with all their parts on one line. -/
def SwitchCase.onLineEach (line : Nat) : List SwitchCase → List SwitchCase
  | [] => []
  | case :: cases => case.onLine line :: SwitchCase.onLineEach line cases

end

namespace Program

/-- The tokens of a program. -/
def spell (program : Program) : List TokenKind :=
  Stmt.spellAll program.body

/-- A program with all its parts on one line. -/
def onLine
    (line : Nat)
    (program : Program) :
    Program :=
  ⟨Stmt.onLineEach line program.body⟩

end Program

/-- Tokens of some kinds, all on one line. -/
def spelledOn
    (line : Nat)
    (kinds : List TokenKind) :
    List Token :=
  kinds.map fun kind => ⟨kind, line, [], []⟩

@[simp]
theorem spelledOn_nil (line : Nat) : spelledOn line [] = [] :=
  rfl

@[simp]
theorem spelledOn_cons
    (line : Nat)
    (kind : TokenKind)
    (kinds : List TokenKind) :
    spelledOn line (kind :: kinds) = ⟨kind, line, [], []⟩ :: spelledOn line kinds :=
  rfl

@[simp]
theorem spelledOn_append
    (line : Nat)
    (first second : List TokenKind) :
    spelledOn line (first ++ second) = spelledOn line first ++ spelledOn line second :=
  List.map_append

end LedSketch.Script
