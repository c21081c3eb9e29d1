import LedSketch.Script.TokenStream

namespace LedSketch.Script

/-!
# Operators between two operands

The logical and the binary operators share one scale of levels: a higher level
binds more tightly, and operators of one level group to the left.
-/

/-- An operator that stands between its operands. -/
inductive Operator where
  | logical (op : LogicalOp)
  | binary (op : BinaryOp)
  deriving Repr, DecidableEq

namespace Operator

/-- The number of levels. -/
def levels : Nat := 10

/-- The level of an operator, the loosest first. -/
def level : Operator → Nat
  | .logical .or => 0
  | .logical .and => 1
  | .binary .bitOr => 2
  | .binary .bitXor => 3
  | .binary .bitAnd => 4
  | .binary .equal => 5
  | .binary .notEqual => 5
  | .binary .less => 6
  | .binary .greater => 6
  | .binary .lessEqual => 6
  | .binary .greaterEqual => 6
  | .binary .shiftLeft => 7
  | .binary .shiftRight => 7
  | .binary .add => 8
  | .binary .sub => 8
  | .binary .mul => 9
  | .binary .div => 9
  | .binary .rem => 9

/-- Every operator has one of the levels. -/
theorem level_lt (op : Operator) : op.level < levels := by
  rcases op with op | op <;> cases op <;> decide

/-- The mark of an operator. -/
def mark : Operator → Punct
  | .logical .or => .orOr
  | .logical .and => .andAnd
  | .binary .bitOr => .pipe
  | .binary .bitXor => .caret
  | .binary .bitAnd => .amp
  | .binary .equal => .equal
  | .binary .notEqual => .notEqual
  | .binary .less => .less
  | .binary .greater => .greater
  | .binary .lessEqual => .lessEqual
  | .binary .greaterEqual => .greaterEqual
  | .binary .shiftLeft => .shiftLeft
  | .binary .shiftRight => .shiftRight
  | .binary .add => .plus
  | .binary .sub => .minus
  | .binary .mul => .star
  | .binary .div => .slash
  | .binary .rem => .percent

/-- Every operator. -/
def all : List Operator := [
  .logical .or, .logical .and, .binary .bitOr, .binary .bitXor, .binary .bitAnd,
  .binary .equal, .binary .notEqual, .binary .less, .binary .greater,
  .binary .lessEqual, .binary .greaterEqual, .binary .shiftLeft,
  .binary .shiftRight, .binary .add, .binary .sub, .binary .mul, .binary .div,
  .binary .rem]

/-- The operator of a mark. -/
def ofMark? (mark : Punct) : Option Operator :=
  all.find? fun op => op.mark = mark

/-- An operator is found again by its mark. -/
theorem ofMark?_mark (op : Operator) : ofMark? op.mark = some op := by
  rcases op with op | op <;> cases op <;> decide

/-- The operator of a level that a token stands for. -/
def ofToken?
    (level : Nat)
    (kind : TokenKind) :
    Option Operator :=
  match kind with
  | .punct mark => (ofMark? mark).filter fun op => op.level = level
  | _ => none

/-- The expression that an operator makes of its operands, on the line of the left one. -/
def apply
    (op : Operator)
    (left right : Expr) :
    Expr :=
  match op with
  | .logical op => .logical left.line op left right
  | .binary op => .binary left.line op left right

end Operator

/-- The operator combined with an assignment mark; none inside for plain assignment. -/
def assignment? : TokenKind → Option (Option BinaryOp)
  | .punct .assign => some none
  | .punct .plusAssign => some (some .add)
  | .punct .minusAssign => some (some .sub)
  | .punct .starAssign => some (some .mul)
  | .punct .slashAssign => some (some .div)
  | .punct .percentAssign => some (some .rem)
  | .punct .ampAssign => some (some .bitAnd)
  | .punct .pipeAssign => some (some .bitOr)
  | .punct .caretAssign => some (some .bitXor)
  | .punct .shiftLeftAssign => some (some .shiftLeft)
  | .punct .shiftRightAssign => some (some .shiftRight)
  | _ => none

/-- The operator that a token stands for in front of an operand. -/
def unary? : TokenKind → Option UnaryOp
  | .punct .bang => some .not
  | .punct .minus => some .neg
  | .punct .plus => some .plus
  | .punct .tilde => some .bitNot
  | _ => none

/-- The step that a token stands for. -/
def step? : TokenKind → Option Step
  | .punct .plusPlus => some .increment
  | .punct .minusMinus => some .decrement
  | _ => none

/-- The conversion that the words of a type name stand for. -/
def castKind? : List String → Option CastKind
  | ["uint8_t"] => some (.int .bits8 false)
  | ["byte"] => some (.int .bits8 false)
  | ["unsigned", "char"] => some (.int .bits8 false)
  | ["int8_t"] => some (.int .bits8 true)
  | ["char"] => some (.int .bits8 true)
  | ["signed", "char"] => some (.int .bits8 true)
  | ["uint16_t"] => some (.int .bits16 false)
  | ["word"] => some (.int .bits16 false)
  | ["unsigned", "short"] => some (.int .bits16 false)
  | ["int16_t"] => some (.int .bits16 true)
  | ["short"] => some (.int .bits16 true)
  | ["signed", "short"] => some (.int .bits16 true)
  | ["uint32_t"] => some (.int .bits32 false)
  | ["size_t"] => some (.int .bits32 false)
  | ["unsigned"] => some (.int .bits32 false)
  | ["unsigned", "int"] => some (.int .bits32 false)
  | ["unsigned", "long"] => some (.int .bits32 false)
  | ["unsigned", "long", "int"] => some (.int .bits32 false)
  | ["int32_t"] => some (.int .bits32 true)
  | ["int"] => some (.int .bits32 true)
  | ["long"] => some (.int .bits32 true)
  | ["signed"] => some (.int .bits32 true)
  | ["signed", "int"] => some (.int .bits32 true)
  | ["signed", "long"] => some (.int .bits32 true)
  | ["long", "int"] => some (.int .bits32 true)
  | ["uint64_t"] => some (.int .bits64 false)
  | ["unsigned", "long", "long"] => some (.int .bits64 false)
  | ["int64_t"] => some (.int .bits64 true)
  | ["long", "long"] => some (.int .bits64 true)
  | ["signed", "long", "long"] => some (.int .bits64 true)
  | ["float"] => some .float
  | ["double"] => some .float
  | ["bool"] => some .bool
  | ["boolean"] => some .bool
  | _ => none

/-- Whether a token can follow a cast: it starts an operand. -/
def startsOperand : TokenKind → Bool
  | .int _ => true
  | .float _ => true
  | .text _ => true
  | .name _ => true
  | .keyword word =>
      word = .trueWord || word = .falseWord || word = .undefinedWord ||
        word = .nullWord || word = .awaitWord
  | .punct mark =>
      mark = .leftParen || mark = .leftBracket || mark = .bang ||
        mark = .tilde || mark = .minus || mark = .plus || mark = .plusPlus ||
        mark = .minusMinus
  | .endOfInput => false

/-- The names at the front of a token list, and the tokens after them. -/
def splitNames : List Token → List String × List Token
  | [] => ([], [])
  | token :: rest =>
      match token.kind with
      | .name word =>
          let (words, rest) := splitNames rest
          (word :: words, rest)
      | _ => ([], token :: rest)

/-- A type in parentheses before an operand, and the tokens of the operand. -/
def castAhead? (tokens : List Token) : Option (CastKind × List Token) :=
  if (kindOf tokens).isPunct .leftParen then
    let (words, rest) := splitNames (tokens.drop 1)
    if (kindOf rest).isPunct .rightParen && startsOperand (kindOf (rest.drop 1)) then
      (castKind? words).map fun kind => (kind, rest.drop 1)
    else
      none
  else
    none

end LedSketch.Script
