import LedSketch.Machine.Step
import LedSketch.Proofs.Native.Past

namespace LedSketch.Machine.State

/-!
# Runs and the past of their host

A step looks at nothing that the host was told before: it makes the same of a state
with another past, and leaves that past as it is.
-/

open Script

variable (state : State) (past : Past)

/-- The state of a run whose host has a past. -/
def after
    (state : State)
    (past : Past) :
    State :=
  state.withWorld (state.world.after past)

/-- The past is a part of the world of a state and of nothing else. -/
theorem after_world : (state.after past).world = state.world.after past := rfl

/-- The heap has no past. -/
theorem after_heap : (state.after past).world.heap = state.world.heap := rfl

/-- Whether a run is current is no matter of the past. -/
theorem after_live : (state.after past).live = state.live := rfl

/-- Neither names nor elements are looked up in what the host was told. -/
theorem after_readPlace (place : Place) :
    (state.after past).readPlace place = state.readPlace place := rfl

section Evaluation

/-- What an operator gives or refuses is given in the same world. -/
theorem after_giveOperation
    (line : Nat)
    (result : Except TypeFault Value) :
    (state.after past).giveOperation line result =
      (state.giveOperation line result).after past := by
  cases result <;> rfl

/-- Expressions read names, which the past does not bind. -/
theorem after_stepEval (expr : Expr) :
    (state.after past).stepEval expr = (state.stepEval expr).after past := by
  cases expr with
  | name line name =>
      unfold stepEval
      dsimp only [after, withWorld]
      cases state.scopes.get? name <;> rfl
  | call line callee arguments => cases callee <;> rfl
  | _ => rfl

/-- Statements begin with what waits for their parts. -/
theorem after_stepExec (stmt : Stmt) :
    (state.after past).stepExec stmt = (state.stepExec stmt).after past := by
  cases stmt with
  | forLoop init test steps body => cases init <;> rfl
  | returns line value => cases value <;> rfl
  | _ => rfl

/-- Declarations bind names in the scopes, where the past is not. -/
theorem after_stepDeclare (declarators : List Declarator) :
    (state.after past).stepDeclare declarators = (state.stepDeclare declarators).after past := by
  unfold stepDeclare
  rcases declarators with _ | ⟨⟨name, init⟩, rest⟩
  · rfl
  · cases init <;> rfl

/-- A turn of a loop begins with its test. -/
theorem after_stepTurn (loop : Loop) :
    (state.after past).stepTurn loop = (state.stepTurn loop).after past := by
  rcases loop with ⟨test, steps, body⟩
  cases test <;> rfl

theorem after_stepSteps
    (loop : Loop)
    (rest : List Expr) :
    (state.after past).stepSteps loop rest = (state.stepSteps loop rest).after past := by
  cases rest <;> rfl

theorem after_enterCases (cases : List SwitchCase) :
    (state.after past).enterCases cases = (state.enterCases cases).after past := by
  rcases cases with _ | ⟨case, rest⟩ <;> rfl

/-- A switch compares values, and no value depends on the past. -/
theorem after_stepFindCase
    (value : Value)
    (rest cases : List SwitchCase) :
    (state.after past).stepFindCase value rest cases =
      (state.stepFindCase value rest cases).after past := by
  unfold stepFindCase
  rcases rest with _ | ⟨⟨test, body⟩, others⟩
  · exact after_enterCases ..
  · cases test <;> rfl

theorem after_stepCases (rest : List SwitchCase) :
    (state.after past).stepCases rest = (state.stepCases rest).after past := by
  cases rest <;> rfl

theorem after_stepArrayItems
    (done : List Value)
    (rest : List Expr) :
    (state.after past).stepArrayItems done rest =
      (state.stepArrayItems done rest).after past := by
  cases rest <;> rfl

/-- Arguments are collected on the stack. -/
theorem after_stepArguments
    (line : Nat)
    (callee : Callee)
    (done : List Value)
    (rest : List Expr) :
    (state.after past).stepArguments line callee done rest =
      (state.stepArguments line callee done rest).after past := by
  cases rest with
  | nil => cases callee <;> rfl
  | cons argument rest => rfl

/-- The parts of an assigned place are evaluated before anything is written. -/
theorem after_stepResolve
    (target : Expr)
    (use : PlaceUse) :
    (state.after past).stepResolve target use = (state.stepResolve target use).after past := by
  cases target <;> rfl

/-- Names are written into the scopes and elements into the heap. -/
theorem after_storeAndGive
    (line : Nat)
    (place : Place)
    (stored given : Value) :
    (state.after past).storeAndGive line place stored given =
      (state.storeAndGive line place stored given).after past := by
  unfold storeAndGive writePlace
  rcases place with name | ⟨array, position⟩
  · dsimp only [after, withWorld]
    cases state.scopes.set? name stored <;> rfl
  · rfl

/-- A compound assignment computes from the heap, which has no past. -/
theorem after_finishAssign
    (line : Nat)
    (op : Option BinaryOp)
    (place : Place)
    (value : Value) :
    (state.after past).finishAssign line op place value =
      (state.finishAssign line op place value).after past := by
  unfold finishAssign
  cases op with
  | none => exact after_storeAndGive ..
  | some op =>
      dsimp only
      rw [after_readPlace]
      cases state.readPlace place with
      | error fault => rfl
      | ok current =>
          dsimp only
          rw [after_heap]
          cases Value.binary state.world.heap op current value with
          | error fault => rfl
          | ok result => exact after_storeAndGive ..

/-- A step up or down is a compound assignment with one. -/
theorem after_finishUpdate
    (line : Nat)
    (step : Script.Step)
    (fixity : Fixity)
    (place : Place) :
    (state.after past).finishUpdate line step fixity place =
      (state.finishUpdate line step fixity place).after past := by
  unfold finishUpdate
  rw [after_readPlace, after_heap]
  cases state.readPlace place with
  | error fault => rfl
  | ok current =>
      dsimp only
      cases Value.binary state.world.heap (stepOperator step) current (.int 1) with
      | error fault => rfl
      | ok updated => exact after_storeAndGive ..

/-- A place is read, assigned or stepped, each time beside the past. -/
theorem after_stepUse
    (place : Place)
    (use : PlaceUse) :
    (state.after past).stepUse place use = (state.stepUse place use).after past := by
  cases use with
  | read line =>
      unfold stepUse
      dsimp only
      rw [after_readPlace]
      cases state.readPlace place <;> rfl
  | assign line op value => rfl
  | update line step fixity => exact after_finishUpdate ..

/-- Whether a call is too deep, or its scope closed, is known without the past. -/
theorem after_enterFunction
    (closure : Closure)
    (arguments : List Value)
    (line : Nat) :
    (state.after past).enterFunction closure arguments line =
      (state.enterFunction closure arguments line).after past := by
  unfold enterFunction
  by_cases deep : deepestCall ≤ state.depth
  · have deepAfter : deepestCall ≤ (state.after past).depth := deep
    rw [if_pos deep, if_pos deepAfter]
    rfl
  · have shallowAfter : ¬deepestCall ≤ (state.after past).depth := deep
    rw [if_neg deep, if_neg shallowAfter]
    by_cases isOpen : state.scopes.isOpen closure.scope = true
    · have openAfter : (state.after past).scopes.isOpen closure.scope = true := isOpen
      rw [if_pos isOpen, if_pos openAfter]
      rfl
    · have closedAfter : ¬(state.after past).scopes.isOpen closure.scope = true := isOpen
      rw [if_neg isOpen, if_neg closedAfter]
      rfl

/-- Parameters are bound to arguments or to defaults that are still to evaluate. -/
theorem after_stepBind
    (parameters : List Parameter)
    (arguments : List Value)
    (body : List Stmt) :
    (state.after past).stepBind parameters arguments body =
      (state.stepBind parameters arguments body).after past := by
  unfold stepBind
  rcases parameters with _ | ⟨⟨name, default⟩, rest⟩
  · rfl
  · cases arguments with
    | cons argument arguments => rfl
    | nil => cases default <;> rfl

end Evaluation

section Calls

/-- Native functions ignore the past, so a call of one does. -/
theorem after_callNative
    (builtin : Builtin)
    (arguments : List Value)
    (line : Nat) :
    (state.after past).callNative builtin arguments line =
      (state.callNative builtin arguments line).after past := by
  have same := Native.IgnoresPast.compositional.callBuiltin builtin arguments state.world past
  unfold callNative
  rw [after_world, same]
  rcases Native.runIn state.world (Native.callBuiltin builtin arguments) with
    ⟨fault | ⟨value | _⟩, world⟩ <;> rfl

/-- A call enters a function of the script or a native one. -/
theorem after_stepCall
    (callee : Value)
    (arguments : List Value)
    (line : Nat) :
    (state.after past).stepCall callee arguments line =
      (state.stepCall callee arguments line).after past := by
  cases callee with
  | function closure => exact after_enterFunction ..
  | builtin builtin => exact after_callNative ..
  | _ => rfl

/-- Methods of native objects ignore the past, so their calls do. -/
theorem after_stepInvoke
    (object : Value)
    (name : String)
    (arguments : List Value)
    (line : Nat) :
    (state.after past).stepInvoke object name arguments line =
      (state.stepInvoke object name arguments line).after past := by
  cases object with
  | object handle =>
      have same :=
        Native.IgnoresPast.compositional.callMethod handle name arguments state.world past
      unfold stepInvoke
      dsimp only
      rw [after_world, same]
      rcases Native.runIn state.world (Native.callMethod handle name arguments) with
        ⟨fault | value, world⟩ <;> rfl
  | _ => rfl

end Calls

section Sequence

/-- Whether handlers are in progress is noted in the state. -/
theorem after_stepDispatch :
    (state.after past).stepDispatch = state.stepDispatch.after past := by
  have same : (state.after past).dispatching = state.dispatching := rfl
  unfold stepDispatch
  rw [same]
  cases state.dispatching <;> rfl

/-- Taking a click adds to the log behind the past. -/
theorem after_stepNextClick :
    (state.after past).stepNextClick = state.stepNextClick.after past := by
  have sameClicks : (state.after past).world.host.clicks = state.world.host.clicks := rfl
  have sameBoard : (state.after past).world.board = state.world.board := rfl
  have recorded (clicks : ClickQueue) (entry : LogEntry) :
      { (state.after past).world.host with clicks }.record entry =
        ({ state.world.host with clicks }.record entry).after past :=
    Host.after_record { state.world.host with clicks } past entry
  unfold stepNextClick
  dsimp only
  rw [sameClicks, sameBoard, after_live]
  cases state.world.host.clicks.take? with
  | none => rfl
  | some click =>
      rcases click with ⟨id, clicks⟩
      dsimp only
      cases handlerOf? state.world.board id with
      | none =>
          dsimp only
          rw [recorded]
          rfl
      | some found =>
          rcases found with ⟨label, handler⟩
          dsimp only
          rw [recorded]
          cases state.live <;> rfl

/-- `setup` and `loop` are global names. -/
theorem after_entryPoint? (name : String) :
    (state.after past).entryPoint? name = state.entryPoint? name := rfl

/-- Whether `setup` is called depends on the scopes alone. -/
theorem after_stepFindSetup :
    (state.after past).stepFindSetup = state.stepFindSetup.after past := by
  unfold stepFindSetup
  rw [after_entryPoint?]
  cases state.entryPoint? "setup" <;> rfl

/-- Whether `loop` is called depends on the scopes alone. -/
theorem after_stepFindLoop :
    (state.after past).stepFindLoop = state.stepFindLoop.after past := by
  unfold stepFindLoop
  rw [after_entryPoint?]
  cases state.entryPoint? "loop" <;> rfl

/-- The turns of `loop` are counted in the state, not by the host. -/
theorem after_stepLoopTop (main : Value) :
    (state.after past).stepLoopTop main = (state.stepLoopTop main).after past := by
  have sameLimit : (state.after past).limitReached = state.limitReached := rfl
  unfold stepLoopTop
  rw [after_live, sameLimit]
  cases state.live with
  | false => rfl
  | true => cases state.limitReached <;> rfl

end Sequence

section Frames

/-- A value goes on with the frame on top, frame by frame without the past. -/
theorem after_stepValue
    (value : Value)
    (frame : Frame) :
    (state.after past).stepValue value frame = (state.stepValue value frame).after past := by
  cases frame with
  | unaryOperand | castOperand => exact after_giveOperation ..
  | rightOperand line op left => exact after_giveOperation ..
  | assignedValue line op place => exact after_finishAssign ..
  | logicalLeft op right =>
      unfold stepValue
      dsimp only
      cases op <;> cases value.truthy <;> rfl
  | memberObject line name =>
      unfold stepValue
      dsimp only
      rw [after_heap]
      cases memberValue state.world.heap name value <;> rfl
  | indexPosition line object use =>
      unfold stepValue
      dsimp only
      rw [after_heap]
      cases value.toInt64 with
      | error fault => rfl
      | ok position =>
          dsimp only
          cases elementPlace state.world.heap object position <;> rfl
  | branchTest whenTrue whenFalse =>
      unfold stepValue
      dsimp only
      cases value.truthy <;> cases whenFalse <;> rfl
  | loopTest loop =>
      unfold stepValue
      dsimp only
      cases value.truthy <;> rfl
  | switchTest wanted rest cases =>
      unfold stepValue
      dsimp only
      cases Value.equal value wanted with
      | true => exact after_enterCases ..
      | false => rfl
  | delayEnd line =>
      unfold stepValue
      dsimp only
      rw [after_live]
      cases state.live <;> rfl
  | _ => rfl

/-- A jump leaves the frame on top, whatever was told. -/
theorem after_stepFlow
    (flow : Flow)
    (frame : Frame) :
    (state.after past).stepFlow flow frame = (state.stepFlow flow frame).after past := by
  cases frame <;> cases flow <;> rfl

/-- A failure unwinds the frame on top, whatever was told. -/
theorem after_stepRaise (frame : Frame) :
    (state.after past).stepRaise frame = (state.stepRaise frame).after past := by
  cases frame <;> rfl

end Frames

/-- A step makes the same of a state whatever its host was told before. -/
theorem after_step : (state.after past).step = state.step.after past := by
  have sameControl : (state.after past).control = state.control := rfl
  have sameStack : (state.after past).stack = state.stack := rfl
  unfold step
  rw [sameControl, sameStack]
  cases state.control with
  | eval expr => exact after_stepEval ..
  | exec stmt => exact after_stepExec ..
  | enterBlock body => rfl
  | statements rest => cases rest <;> rfl
  | declare declarators => exact after_stepDeclare ..
  | turn loop => exact after_stepTurn ..
  | steps loop rest => exact after_stepSteps ..
  | findCase value rest cases => exact after_stepFindCase ..
  | cases rest => exact after_stepCases ..
  | arrayItems done rest => exact after_stepArrayItems ..
  | collectArguments line callee done rest => exact after_stepArguments ..
  | resolve target use => exact after_stepResolve ..
  | use place use => exact after_stepUse ..
  | call callee arguments line => exact after_stepCall ..
  | invoke object name arguments line => exact after_stepInvoke ..
  | bindParameters parameters arguments body => exact after_stepBind ..
  | dispatch => exact after_stepDispatch ..
  | nextClick => exact after_stepNextClick ..
  | findSetup => exact after_stepFindSetup ..
  | findLoop => exact after_stepFindLoop ..
  | loopTop main => exact after_stepLoopTop ..
  | value value =>
      cases state.stack with
      | nil => rfl
      | cons frame rest => exact after_stepValue (state.popped rest) past value frame
  | flow flow =>
      cases state.stack with
      | nil => rfl
      | cons frame rest => exact after_stepFlow (state.popped rest) past flow frame
  | raise interrupt =>
      cases state.stack with
      | nil => rfl
      | cons frame rest => exact after_stepRaise (state.popped rest) past frame
  | suspended => rfl
  | halted outcome => rfl

end LedSketch.Machine.State
