import LedSketch.Host.World
import LedSketch.Script.Scope

namespace LedSketch.Machine

/-!
# States of a running sketch

A run is a control, which says what happens next, and a stack of frames, which
say what its result is for.  A delay can suspend a run anywhere, so all that a
suspended run needs is in its state.
-/

open Script

/-- How a statement completed. -/
inductive Flow where
  | normal
  | returned (value : Value)
  | broke
  | continued

/-- The value of a function whose body completed in some way. -/
def Flow.value : Flow → Value
  | .returned value => value
  | _ => .undefined

/-- A location that can be assigned to. -/
inductive Place where
  | variable (name : String)
  | element (array position : Nat)

/-- What a resolved place is for. -/
inductive PlaceUse where
  | read (line : Nat)
  | assign (line : Nat) (op : Option BinaryOp) (value : Expr)
  | update (line : Nat) (step : Step) (fixity : Fixity)

/-- What a call is made on, before its arguments are known. -/
inductive Callee where
  | function (value : Value)
  | method (object : Value) (name : String)

/-- A loop: an optional test, a body, and the steps after each turn of the body. -/
structure Loop where
  test : Option Expr
  steps : List Expr
  body : Stmt

/-- What the result of the control is for. -/
inductive Frame where
  -- These take the value of an expression.
  | arrayItem (done : List Value) (rest : List Expr)
  | unaryOperand (line : Nat) (op : UnaryOp)
  | leftOperand (line : Nat) (op : BinaryOp) (right : Expr)
  | rightOperand (line : Nat) (op : BinaryOp) (left : Value)
  | logicalLeft (op : LogicalOp) (right : Expr)
  | logicalRight
  | conditionalTest (whenTrue whenFalse : Expr)
  | assignedValue (line : Nat) (op : Option BinaryOp) (place : Place)
  | castOperand (line : Nat) (kind : CastKind)
  | memberObject (line : Nat) (name : String)
  | callTarget (line : Nat) (arguments : List Expr)
  | methodObject (line : Nat) (name : String) (arguments : List Expr)
  | callArgument
      (line : Nat)
      (callee : Callee)
      (done : List Value)
      (rest : List Expr)
  | indexedObject (line : Nat) (position : Expr) (use : PlaceUse)
  | indexPosition (line : Nat) (object : Value) (use : PlaceUse)
  | declaredValue (name : String) (rest : List Declarator)
  | discarded
  | branchTest (whenTrue : Stmt) (whenFalse : Option Stmt)
  | loopTest (loop : Loop)
  | loopStep (loop : Loop) (rest : List Expr)
  | switchValue (cases : List SwitchCase)
  | switchTest (value : Value) (rest cases : List SwitchCase)
  | returnedValue
  | defaultValue (name : String) (rest : List Parameter) (body : List Stmt)
  | handlerCall
  | delayEnd (line : Nat)
  | setupCall
  | dispatchBeforeLoop (main : Value)
  | loopCall (main : Value)
  | iterationEnd (main : Value)
  -- These take the completion of a statement.
  | blockRest (rest : List Stmt)
  | openScope
  | loopStart (loop : Loop)
  | loopBody (loop : Loop)
  | caseRest (rest : List SwitchCase)
  | activation (outerDepth : Nat)
  | topLevel

/-- What happens next. -/
inductive Control where
  | eval (expr : Expr)
  | exec (stmt : Stmt)
  /-- Declare the functions of a block, then run its statements. -/
  | enterBlock (body : List Stmt)
  | statements (rest : List Stmt)
  | declare (declarators : List Declarator)
  | turn (loop : Loop)
  | steps (loop : Loop) (rest : List Expr)
  | findCase (value : Value) (rest cases : List SwitchCase)
  | cases (rest : List SwitchCase)
  | arrayItems (done : List Value) (rest : List Expr)
  | collectArguments
      (line : Nat)
      (callee : Callee)
      (done : List Value)
      (rest : List Expr)
  | resolve (target : Expr) (use : PlaceUse)
  | use (place : Place) (use : PlaceUse)
  | call (callee : Value) (arguments : List Value) (line : Nat)
  | invoke (object : Value) (name : String) (arguments : List Value) (line : Nat)
  | bindParameters
      (parameters : List Parameter)
      (arguments : List Value)
      (body : List Stmt)
  /-- Handle the clicks that wait, unless a handler is already at work. -/
  | dispatch
  | nextClick
  | findSetup
  | findLoop
  | loopTop (main : Value)
  | value (value : Value)
  | flow (flow : Flow)
  | raise (interrupt : Interrupt)
  /-- Control is with the host; the run goes on with the value `undefined`. -/
  | suspended
  | halted (outcome : Outcome)

/-- The state of a run. -/
structure State where
  control : Control
  stack : List Frame
  scopes : Scopes
  world : World
  /-- The number of script functions in progress. -/
  depth : Nat
  /-- Whether a click handler is in progress. -/
  dispatching : Bool
  /-- The number that the next declaration event gives its functions. -/
  nextBirth : Nat
  /-- The calls of `loop` that have completed. -/
  iterations : Nat
  /-- The number of calls of `loop` after which the run ends. -/
  limit : Option Nat

namespace State

/-- The state that goes on with another control. -/
def goto
    (state : State)
    (control : Control) :
    State :=
  { state with control }

/-- The state with one more frame. -/
def push
    (state : State)
    (frame : Frame) :
    State :=
  { state with stack := frame :: state.stack }

/-- The state that goes on with a control whose result a frame takes. -/
def into
    (state : State)
    (frame : Frame)
    (control : Control) :
    State :=
  (state.push frame).goto control

/-- The state that goes on with the value of an expression. -/
def give
    (state : State)
    (value : Value) :
    State :=
  state.goto (.value value)

/-- The state that goes on with the completion of a statement. -/
def complete
    (state : State)
    (flow : Flow) :
    State :=
  state.goto (.flow flow)

/-- The state that stops the program. -/
def stop
    (state : State)
    (interrupt : Interrupt) :
    State :=
  state.goto (.raise interrupt)

/-- The state that stops the program with a runtime fault. -/
def fault
    (state : State)
    (line : Nat)
    (fault : RuntimeFault) :
    State :=
  state.stop (.runtime line fault)

/-- The state that goes on with the value of an operation, or with its fault. -/
def giveOperation
    (state : State)
    (line : Nat)
    (result : Except TypeFault Value) :
    State :=
  match result with
  | .ok value => state.give value
  | .error fault => state.fault line (.type fault)

/-- The state with other scopes. -/
def withScopes
    (state : State)
    (scopes : Scopes) :
    State :=
  { state with scopes }

/-- The state with another world. -/
def withWorld
    (state : State)
    (world : World) :
    State :=
  { state with world }

/-- Whether the run is the current one. -/
def live (state : State) : Bool := state.world.host.live

/-- Whether no step is left to make before the next poll. -/
def paused (state : State) : Bool :=
  match state.control with
  | .suspended => true
  | .halted _ => true
  | _ => false

end State

end LedSketch.Machine
