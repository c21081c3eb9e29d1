namespace LedSketch.Script

/-!
# Syntax of the script language

Expressions and statements as the parser builds them.  Every node that can fail
when it runs carries its line.
-/

/-- The operators of two operands that are always both evaluated. -/
inductive BinaryOp where
  | add
  | sub
  | mul
  | div
  | rem
  | bitAnd
  | bitOr
  | bitXor
  | shiftLeft
  | shiftRight
  | equal
  | notEqual
  | less
  | greater
  | lessEqual
  | greaterEqual
  deriving Repr, DecidableEq

/-- The operators that may leave their right operand unevaluated. -/
inductive LogicalOp where
  | and
  | or
  deriving Repr, DecidableEq

/-- The operators of one operand. -/
inductive UnaryOp where
  | not
  | neg
  | plus
  | bitNot
  deriving Repr, DecidableEq

/-- The widths an integer can be cut to. -/
inductive Width where
  | bits8
  | bits16
  | bits32
  | bits64
  deriving Repr, DecidableEq

/-- The number of bits of a width. -/
def Width.bits : Width → Nat
  | .bits8 => 8
  | .bits16 => 16
  | .bits32 => 32
  | .bits64 => 64

/-- What a cast converts to. -/
inductive CastKind where
  | int (width : Width) (signed : Bool)
  | float
  | bool
  deriving Repr, DecidableEq

/-- The two ways to step a variable. -/
inductive Step where
  | increment
  | decrement
  deriving Repr, DecidableEq

/-- Whether a step is written before or after its target. -/
inductive Fixity where
  | before
  | after
  deriving Repr, DecidableEq

/-- Expressions. -/
inductive Expr where
  | int (line : Nat) (value : Int64)
  | float (line : Nat) (value : Float)
  | text (line : Nat) (value : String)
  | bool (line : Nat) (value : Bool)
  | undefined (line : Nat)
  | name (line : Nat) (name : String)
  | array (line : Nat) (items : List Expr)
  | unary (line : Nat) (op : UnaryOp) (operand : Expr)
  | binary (line : Nat) (op : BinaryOp) (left right : Expr)
  | logical (line : Nat) (op : LogicalOp) (left right : Expr)
  | conditional (line : Nat) (test whenTrue whenFalse : Expr)
  /-- Plain assignment, or assignment combined with an operator. -/
  | assign (line : Nat) (op : Option BinaryOp) (target value : Expr)
  | update (line : Nat) (step : Step) (fixity : Fixity) (target : Expr)
  | cast (line : Nat) (kind : CastKind) (operand : Expr)
  | await (line : Nat) (operand : Expr)
  | call (line : Nat) (callee : Expr) (arguments : List Expr)
  | member (line : Nat) (object : Expr) (name : String)
  | index (line : Nat) (object position : Expr)

namespace Expr

/-- The line an expression reports its failures on. -/
def line : Expr → Nat
  | .int line _ => line
  | .float line _ => line
  | .text line _ => line
  | .bool line _ => line
  | .undefined line => line
  | .name line _ => line
  | .array line _ => line
  | .unary line _ _ => line
  | .binary line _ _ _ => line
  | .logical line _ _ _ => line
  | .conditional line _ _ _ => line
  | .assign line _ _ _ => line
  | .update line _ _ _ => line
  | .cast line _ _ => line
  | .await line _ => line
  | .call line _ _ => line
  | .member line _ _ => line
  | .index line _ _ => line

/-- Whether an expression has the form of an assignment target. -/
def isTarget : Expr → Bool
  | .name .. => true
  | .member .. => true
  | .index .. => true
  | _ => false

end Expr

/-- A parameter of a function, with the value of a missing argument. -/
structure Parameter where
  name : String
  default : Option Expr

/-- One variable of a declaration. -/
structure Declarator where
  name : String
  init : Option Expr

/-- The first clause of a counting loop. -/
inductive ForInit where
  | nothing
  | declare (line : Nat) (declarators : List Declarator)
  | expr (expr : Expr)

mutual

/-- Statements. -/
inductive Stmt where
  | declare (line : Nat) (declarators : List Declarator)
  | function
      (line : Nat)
      (name : String)
      (parameters : List Parameter)
      (body : List Stmt)
  | expr (expr : Expr)
  | block (body : List Stmt)
  | branch (test : Expr) (whenTrue : Stmt) (whenFalse : Option Stmt)
  | whileLoop (test : Expr) (body : Stmt)
  | doLoop (body : Stmt) (test : Expr)
  | forLoop
      (init : ForInit)
      (test : Option Expr)
      (steps : List Expr)
      (body : Stmt)
  | switch (discriminant : Expr) (cases : List SwitchCase)
  | returns (line : Nat) (value : Option Expr)
  | breaks (line : Nat)
  | continues (line : Nat)
  | empty

/-- One case of a `switch`; the default case has no test. -/
inductive SwitchCase where
  | mk (test : Option Expr) (body : List Stmt)

end

namespace SwitchCase

/-- The value that selects a case; none for the default case. -/
def test : SwitchCase → Option Expr
  | .mk test _ => test

/-- The statements of a case. -/
def body : SwitchCase → List Stmt
  | .mk _ body => body

end SwitchCase

/-- A declared function. -/
structure Function where
  line : Nat
  name : String
  parameters : List Parameter
  body : List Stmt

/-- A program: the statements of its top level. -/
structure Program where
  body : List Stmt

end LedSketch.Script
