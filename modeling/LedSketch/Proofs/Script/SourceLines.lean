import LedSketch.Script.Fault
import LedSketch.Script.Value

namespace LedSketch.Script

/-!
# Code within limits

Every expression and every statement carries the line it was written on.  A script is
within some limits if all its parts, at any depth, carry one of their lines, and declare
and assign only what they allow.
-/

/-- What code may do: the lines it is on, and the names that it declares and assigns. -/
structure Limits where
  lines : Nat → Prop
  declares : String → Prop
  assigns : Option BinaryOp → String → Prop

/-- The limits that only ask for lines. -/
def Limits.onLines (known : Nat → Prop) : Limits where
  lines := known
  declares _ := True
  assigns _ _ := True

/-- A target that may be assigned with an operator. -/
def Expr.MayAssign
    (limits : Limits)
    (op : Option BinaryOp) :
    Expr → Prop
  | .name _ assigned => limits.assigns op assigned
  | _ => True

/-- An expression with all its parts within limits. -/
inductive Expr.Within (limits : Limits) : Expr → Prop where
  | int
      {line : Nat}
      {value : Int64}
      (here : limits.lines line) :
      Within limits (.int line value)
  | float
      {line : Nat}
      {value : Float}
      (here : limits.lines line) :
      Within limits (.float line value)
  | text
      {line : Nat}
      {value : String}
      (here : limits.lines line) :
      Within limits (.text line value)
  | bool
      {line : Nat}
      {value : Bool}
      (here : limits.lines line) :
      Within limits (.bool line value)
  | undefined
      {line : Nat}
      (here : limits.lines line) :
      Within limits (.undefined line)
  | name
      {line : Nat}
      {name : String}
      (here : limits.lines line) :
      Within limits (.name line name)
  | array
      {line : Nat}
      {items : List Expr}
      (here : limits.lines line)
      (parts : ∀ item ∈ items, Within limits item) :
      Within limits (.array line items)
  | unary
      {line : Nat}
      {op : UnaryOp}
      {operand : Expr}
      (here : limits.lines line)
      (part : Within limits operand) :
      Within limits (.unary line op operand)
  | binary
      {line : Nat}
      {op : BinaryOp}
      {left right : Expr}
      (here : limits.lines line)
      (first : Within limits left)
      (second : Within limits right) :
      Within limits (.binary line op left right)
  | logical
      {line : Nat}
      {op : LogicalOp}
      {left right : Expr}
      (here : limits.lines line)
      (first : Within limits left)
      (second : Within limits right) :
      Within limits (.logical line op left right)
  | conditional
      {line : Nat}
      {test whenTrue whenFalse : Expr}
      (here : limits.lines line)
      (tested : Within limits test)
      (first : Within limits whenTrue)
      (second : Within limits whenFalse) :
      Within limits (.conditional line test whenTrue whenFalse)
  | assign
      {line : Nat}
      {op : Option BinaryOp}
      {target value : Expr}
      (here : limits.lines line)
      (allowed : target.MayAssign limits op)
      (first : Within limits target)
      (second : Within limits value) :
      Within limits (.assign line op target value)
  | update
      {line : Nat}
      {step : Step}
      {fixity : Fixity}
      {target : Expr}
      (here : limits.lines line)
      (part : Within limits target) :
      Within limits (.update line step fixity target)
  | cast
      {line : Nat}
      {kind : CastKind}
      {operand : Expr}
      (here : limits.lines line)
      (part : Within limits operand) :
      Within limits (.cast line kind operand)
  | await
      {line : Nat}
      {operand : Expr}
      (here : limits.lines line)
      (part : Within limits operand) :
      Within limits (.await line operand)
  | call
      {line : Nat}
      {callee : Expr}
      {arguments : List Expr}
      (here : limits.lines line)
      (called : Within limits callee)
      (parts : ∀ argument ∈ arguments, Within limits argument) :
      Within limits (.call line callee arguments)
  | member
      {line : Nat}
      {object : Expr}
      {name : String}
      (here : limits.lines line)
      (part : Within limits object) :
      Within limits (.member line object name)
  | index
      {line : Nat}
      {object position : Expr}
      (here : limits.lines line)
      (first : Within limits object)
      (second : Within limits position) :
      Within limits (.index line object position)

/-- The line of an expression is one of its lines. -/
theorem Expr.Within.line
    {limits : Limits}
    {expr : Expr}
    (within : expr.Within limits) :
    limits.lines expr.line := by
  cases within <;> assumption

/-- A variable that may be declared, with an initial value within limits. -/
structure Declarator.Within
    (limits : Limits)
    (declarator : Declarator) :
    Prop where
  named : limits.declares declarator.name
  init : ∀ init ∈ declarator.init, init.Within limits

/-- A parameter that may be declared, with a default value within limits. -/
structure Parameter.Within
    (limits : Limits)
    (parameter : Parameter) :
    Prop where
  named : limits.declares parameter.name
  default : ∀ default ∈ parameter.default, default.Within limits

/-- The first clause of a counting loop within limits. -/
def ForInit.Within
    (limits : Limits) :
    ForInit → Prop
  | .nothing => True
  | .declare line declarators =>
      limits.lines line ∧ ∀ declarator ∈ declarators, declarator.Within limits
  | .expr value => value.Within limits

mutual

/-- A statement with all its parts within limits. -/
inductive Stmt.Within (limits : Limits) : Stmt → Prop where
  | declare
      {line : Nat}
      {declarators : List Declarator}
      (here : limits.lines line)
      (parts : ∀ declarator ∈ declarators, declarator.Within limits) :
      Stmt.Within limits (.declare line declarators)
  | function
      {line : Nat}
      {name : String}
      {parameters : List Parameter}
      {body : List Stmt}
      (here : limits.lines line)
      (named : limits.declares name)
      (defaults : ∀ parameter ∈ parameters, parameter.Within limits)
      (parts : ∀ stmt ∈ body, Stmt.Within limits stmt) :
      Stmt.Within limits (.function line name parameters body)
  | expr
      {expr : Expr}
      (part : expr.Within limits) :
      Stmt.Within limits (.expr expr)
  | block
      {body : List Stmt}
      (parts : ∀ stmt ∈ body, Stmt.Within limits stmt) :
      Stmt.Within limits (.block body)
  | branch
      {test : Expr}
      {whenTrue : Stmt}
      {whenFalse : Option Stmt}
      (tested : test.Within limits)
      (first : Stmt.Within limits whenTrue)
      (second : ∀ stmt ∈ whenFalse, Stmt.Within limits stmt) :
      Stmt.Within limits (.branch test whenTrue whenFalse)
  | whileLoop
      {test : Expr}
      {body : Stmt}
      (tested : test.Within limits)
      (repeated : Stmt.Within limits body) :
      Stmt.Within limits (.whileLoop test body)
  | doLoop
      {body : Stmt}
      {test : Expr}
      (repeated : Stmt.Within limits body)
      (tested : test.Within limits) :
      Stmt.Within limits (.doLoop body test)
  | forLoop
      {init : ForInit}
      {test : Option Expr}
      {steps : List Expr}
      {body : Stmt}
      (started : init.Within limits)
      (tested : ∀ expr ∈ test, expr.Within limits)
      (stepped : ∀ expr ∈ steps, expr.Within limits)
      (repeated : Stmt.Within limits body) :
      Stmt.Within limits (.forLoop init test steps body)
  | switch
      {discriminant : Expr}
      {cases : List SwitchCase}
      (tested : discriminant.Within limits)
      (parts : ∀ case ∈ cases, SwitchCase.Within limits case) :
      Stmt.Within limits (.switch discriminant cases)
  | returns
      {line : Nat}
      {value : Option Expr}
      (here : limits.lines line)
      (part : ∀ expr ∈ value, expr.Within limits) :
      Stmt.Within limits (.returns line value)
  | breaks
      {line : Nat}
      (here : limits.lines line) :
      Stmt.Within limits (.breaks line)
  | continues
      {line : Nat}
      (here : limits.lines line) :
      Stmt.Within limits (.continues line)
  | empty :
      Stmt.Within limits .empty

/-- A case with all its parts within limits. -/
inductive SwitchCase.Within (limits : Limits) : SwitchCase → Prop where
  | mk
      {test : Option Expr}
      {body : List Stmt}
      (tested : ∀ expr ∈ test, expr.Within limits)
      (parts : ∀ stmt ∈ body, Stmt.Within limits stmt) :
      SwitchCase.Within limits (.mk test body)

end

namespace SwitchCase.Within

variable {limits : Limits} {case : SwitchCase}

theorem test
    (within : case.Within limits) :
    ∀ expr ∈ case.test, expr.Within limits := by
  cases within with
  | mk tested parts => exact tested

theorem body
    (within : case.Within limits) :
    ∀ stmt ∈ case.body, stmt.Within limits := by
  cases within with
  | mk tested parts => exact parts

end SwitchCase.Within

/-- A function that is declared, and does what it does, within limits. -/
structure Function.Within
    (limits : Limits)
    (function : Function) :
    Prop where
  here : limits.lines function.line
  defaults : ∀ parameter ∈ function.parameters, parameter.Within limits
  parts : ∀ stmt ∈ function.body, stmt.Within limits

/-- A value that is not a function written outside the limits. -/
def Value.Within
    (limits : Limits) :
    Value → Prop
  | .function closure => closure.function.Within limits
  | _ => True

/-- An interrupt that is no failure, or one on a known line. -/
def Interrupt.Located
    (known : Nat → Prop) :
    Interrupt → Prop
  | .failed failure => known failure.line
  | .superseded => True

theorem Interrupt.located_ofCall
    {known : Nat → Prop}
    {line : Nat}
    (here : known line)
    (fault : CallFault) :
    (Interrupt.ofCall line fault).Located known := by
  cases fault with
  | strip | color | type => exact here
  | superseded => trivial

end LedSketch.Script
