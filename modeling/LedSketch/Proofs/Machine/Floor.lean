import LedSketch.Proofs.Machine.Seats

namespace LedSketch.Machine

/-!
# Work over a floor

A step only looks at the top of the stack.  So what a run does until it gives a result to
some frame is what it would do without that frame and those below it.
-/

open Script

/-- The state with more frames below its own. -/
def State.onFloor
    (floor : List Frame)
    (state : State) :
    State :=
  { state with stack := state.stack ++ floor }

namespace State

variable (floor : List Frame) (state : State)

@[simp] theorem onFloor_scopes : (state.onFloor floor).scopes = state.scopes := rfl

@[simp] theorem onFloor_world : (state.onFloor floor).world = state.world := rfl

@[simp] theorem onFloor_dispatching : (state.onFloor floor).dispatching = state.dispatching := rfl

/-- The entry points are looked up in the scopes, of which a floor has none. -/
theorem onFloor_entryPoint? (name : String) :
    (state.onFloor floor).entryPoint? name = state.entryPoint? name :=
  rfl

theorem onFloor_live : (state.onFloor floor).live = state.live := rfl

/-- A result or a fault of an operator goes to whatever frame is on top. -/
theorem onFloor_giveOperation
    (line : Nat)
    (computed : Except TypeFault Value) :
    (state.onFloor floor).giveOperation line computed =
      (state.giveOperation line computed).onFloor floor := by
  cases computed <;> rfl

/-- To evaluate an expression pushes what waits for its parts, on any floor. -/
theorem onFloor_stepEval (expr : Expr) :
    (state.onFloor floor).stepEval expr = (state.stepEval expr).onFloor floor := by
  cases expr with
  | name line name =>
      unfold stepEval
      dsimp only [onFloor_scopes]
      cases state.scopes.get? name <;> rfl
  | call line callee arguments => cases callee <;> rfl
  | _ => rfl

/-- To execute a statement pushes what waits for its parts, on any floor. -/
theorem onFloor_stepExec (stmt : Stmt) :
    (state.onFloor floor).stepExec stmt = (state.stepExec stmt).onFloor floor := by
  cases stmt with
  | forLoop init test steps body => cases init <;> rfl
  | returns line value => cases value <;> rfl
  | _ => rfl

/-- A declaration waits for its initial value above the floor. -/
theorem onFloor_stepDeclare (declarators : List Declarator) :
    (state.onFloor floor).stepDeclare declarators =
      (state.stepDeclare declarators).onFloor floor := by
  rcases declarators with _ | ⟨⟨name, init⟩, rest⟩
  · rfl
  · cases init <;> rfl

theorem onFloor_enterCases (cases : List SwitchCase) :
    (state.onFloor floor).enterCases cases = (state.enterCases cases).onFloor floor := by
  cases cases <;> rfl

/-- A switch goes through its cases without a look at what waits for it. -/
theorem onFloor_stepFindCase
    (value : Value)
    (rest all : List SwitchCase) :
    (state.onFloor floor).stepFindCase value rest all =
      (state.stepFindCase value rest all).onFloor floor := by
  cases rest with
  | nil => exact onFloor_enterCases floor state (fromDefault all)
  | cons case others =>
      unfold stepFindCase
      dsimp only
      cases case.test <;> rfl

/-- Arguments are collected above the floor, and the call follows them there. -/
theorem onFloor_stepArguments
    (line : Nat)
    (callee : Callee)
    (done : List Value)
    (rest : List Expr) :
    (state.onFloor floor).stepArguments line callee done rest =
      (state.stepArguments line callee done rest).onFloor floor := by
  cases rest with
  | nil => cases callee <;> rfl
  | cons argument rest => rfl

/-- The parts of an assigned place are evaluated above the floor. -/
theorem onFloor_stepResolve
    (target : Expr)
    (wanted : PlaceUse) :
    (state.onFloor floor).stepResolve target wanted =
      (state.stepResolve target wanted).onFloor floor := by
  cases target <;> rfl

/-- What a place holds is read from the scopes and the heap. -/
theorem onFloor_readPlace (place : Place) :
    (state.onFloor floor).readPlace place = state.readPlace place := by
  cases place <;> rfl

/-- To store goes into the scopes or the heap, and the result on top of the stack. -/
theorem onFloor_storeAndGive
    (line : Nat)
    (place : Place)
    (stored given : Value) :
    (state.onFloor floor).storeAndGive line place stored given =
      (state.storeAndGive line place stored given).onFloor floor := by
  unfold storeAndGive writePlace
  rcases place with name | ⟨id, position⟩
  · dsimp only [onFloor_scopes]
    cases state.scopes.set? name stored <;> rfl
  · rfl

/-- A compound assignment reads, computes and stores without the stack. -/
theorem onFloor_finishAssign
    (line : Nat)
    (op : Option BinaryOp)
    (place : Place)
    (value : Value) :
    (state.onFloor floor).finishAssign line op place value =
      (state.finishAssign line op place value).onFloor floor := by
  unfold finishAssign
  simp only [onFloor_readPlace, onFloor_storeAndGive, onFloor_world]
  cases op with
  | none => rfl
  | some op =>
      dsimp only
      cases state.readPlace place with
      | error fault => rfl
      | ok current =>
          dsimp only
          cases Value.binary state.world.heap op current value <;> rfl

theorem onFloor_stepUse
    (place : Place)
    (wanted : PlaceUse) :
    (state.onFloor floor).stepUse place wanted = (state.stepUse place wanted).onFloor floor := by
  unfold stepUse finishUpdate
  simp only [onFloor_readPlace, onFloor_storeAndGive, onFloor_world]
  cases wanted with
  | assign line op value => rfl
  | read line =>
      dsimp only
      cases state.readPlace place <;> rfl
  | update line step fixity =>
      dsimp only
      cases state.readPlace place with
      | error fault => rfl
      | ok current =>
          dsimp only
          cases Value.binary state.world.heap (stepOperator step) current (.int 1) <;> rfl

/-- The depth of calls is counted in the state, so a floor adds nothing to it. -/
theorem onFloor_enterFunction
    (closure : Closure)
    (arguments : List Value)
    (line : Nat) :
    (state.onFloor floor).enterFunction closure arguments line =
      (state.enterFunction closure arguments line).onFloor floor := by
  unfold enterFunction
  by_cases deepest : deepestCall ≤ state.depth
  · have same : deepestCall ≤ (state.onFloor floor).depth := deepest
    rw [if_pos same, if_pos deepest]
    rfl
  · have same : ¬ deepestCall ≤ (state.onFloor floor).depth := deepest
    rw [if_neg same, if_neg deepest, onFloor_scopes]
    cases state.scopes.isOpen closure.scope <;> rfl

/-- A call pushes what waits for its end above the floor. -/
theorem onFloor_stepCall
    (callee : Value)
    (arguments : List Value)
    (line : Nat) :
    (state.onFloor floor).stepCall callee arguments line =
      (state.stepCall callee arguments line).onFloor floor := by
  cases callee with
  | function closure =>
      exact onFloor_enterFunction floor state closure arguments line
  | builtin builtin =>
      unfold stepCall callNative
      dsimp only [onFloor_world]
      split <;> rfl
  | _ => rfl

/-- A method of an object changes the world and gives its result on top. -/
theorem onFloor_stepInvoke
    (object : Value)
    (name : String)
    (arguments : List Value)
    (line : Nat) :
    (state.onFloor floor).stepInvoke object name arguments line =
      (state.stepInvoke object name arguments line).onFloor floor := by
  cases object with
  | object handle =>
      unfold stepInvoke
      dsimp only [onFloor_world]
      split <;> rfl
  | _ => rfl

/-- Parameters are bound in the scope of the call, and defaults are evaluated above. -/
theorem onFloor_stepBind
    (parameters : List Parameter)
    (arguments : List Value)
    (body : List Stmt) :
    (state.onFloor floor).stepBind parameters arguments body =
      (state.stepBind parameters arguments body).onFloor floor := by
  rcases parameters with _ | ⟨⟨name, default⟩, rest⟩
  · rfl
  · rcases arguments with _ | ⟨argument, arguments⟩
    · cases default <;> rfl
    · rfl

/-- A handler is called above the floor, with the clicks that are the same there. -/
theorem onFloor_stepNextClick :
    (state.onFloor floor).stepNextClick = state.stepNextClick.onFloor floor := by
  unfold stepNextClick
  dsimp only [onFloor_world]
  split
  · rfl
  · split
    · rfl
    · rw [onFloor_live]
      split <;> rfl

/-- Whether the loop goes on is known from the world and the count of its turns. -/
theorem onFloor_stepLoopTop (main : Value) :
    (state.onFloor floor).stepLoopTop main = (state.stepLoopTop main).onFloor floor := by
  have limitReached : (state.onFloor floor).limitReached = state.limitReached := rfl
  unfold stepLoopTop
  rw [onFloor_live, limitReached]
  split
  · split <;> rfl
  · rfl

/-- A value given to a frame of the run does the same over a floor. -/
theorem onFloor_stepValue
    (value : Value)
    (frame : Frame) :
    (state.onFloor floor).stepValue value frame = (state.stepValue value frame).onFloor floor := by
  cases frame with
  | unaryOperand | rightOperand | castOperand => exact onFloor_giveOperation floor state _ _
  | assignedValue line op place => exact onFloor_finishAssign floor state line op place value
  | logicalLeft op right =>
      unfold stepValue
      dsimp only
      split <;> rfl
  | memberObject line name =>
      unfold stepValue
      dsimp only [onFloor_world]
      split <;> rfl
  | indexPosition line object wanted =>
      unfold stepValue
      dsimp only [onFloor_world]
      split
      · rfl
      · split <;> rfl
  | branchTest whenTrue whenFalse =>
      unfold stepValue
      dsimp only
      split
      · rfl
      · split <;> rfl
  | loopTest loop =>
      unfold stepValue
      dsimp only
      split <;> rfl
  | switchTest wanted rest cases =>
      unfold stepValue
      dsimp only
      split
      · exact onFloor_enterCases floor state rest
      · rfl
  | delayEnd line =>
      unfold stepValue
      dsimp only
      rw [onFloor_live]
      split <;> rfl
  | _ => rfl

/-- A jump leaves the frame on top and no more in one step. -/
theorem onFloor_stepFlow
    (flow : Flow)
    (frame : Frame) :
    (state.onFloor floor).stepFlow flow frame = (state.stepFlow flow frame).onFloor floor := by
  cases frame with
  | blockRest | loopStart | loopBody | caseRest | topLevel => cases flow <;> rfl
  | _ => rfl

/-- A failure unwinds the frame on top and no more in one step. -/
theorem onFloor_stepRaise (frame : Frame) :
    (state.onFloor floor).stepRaise frame = (state.stepRaise frame).onFloor floor := by
  cases frame <;> rfl

/-- Until a floor is given a result, a step over it is a step. -/
theorem step_onFloor (working : state.stack ≠ [] ∨ state.control.isResult = false) :
    (state.onFloor floor).step = state.step.onFloor floor := by
  have top
      {control : Control}
      (same : state.control = control)
      (isResult : control.isResult = true) :
      ∃ frame rest,
        state.stack = frame :: rest ∧ (state.onFloor floor).stack = frame :: (rest ++ floor) := by
    rw [same, isResult] at working
    cases stack : state.stack with
    | nil =>
        rw [stack] at working
        obtain absurd | absurd := working <;> contradiction
    | cons frame rest => exact ⟨frame, rest, rfl, by rw [onFloor, stack]; rfl⟩
  have sameControl : (state.onFloor floor).control = state.control := rfl
  unfold step
  rw [sameControl]
  cases control : state.control with
  | eval expr => exact onFloor_stepEval floor state expr
  | exec stmt => exact onFloor_stepExec floor state stmt
  | enterBlock body => rfl
  | statements rest => cases rest <;> rfl
  | declare declarators => exact onFloor_stepDeclare floor state declarators
  | turn loop =>
      dsimp only
      unfold stepTurn
      split <;> rfl
  | steps loop rest => cases rest <;> rfl
  | findCase value rest all => exact onFloor_stepFindCase floor state value rest all
  | cases rest => cases rest <;> rfl
  | arrayItems done rest => cases rest <;> rfl
  | collectArguments line callee done rest =>
      exact onFloor_stepArguments floor state line callee done rest
  | resolve target wanted => exact onFloor_stepResolve floor state target wanted
  | use place wanted => exact onFloor_stepUse floor state place wanted
  | call callee arguments line => exact onFloor_stepCall floor state callee arguments line
  | invoke object name arguments line =>
      exact onFloor_stepInvoke floor state object name arguments line
  | bindParameters parameters arguments body =>
      exact onFloor_stepBind floor state parameters arguments body
  | dispatch =>
      dsimp only
      unfold stepDispatch
      rw [onFloor_dispatching]
      split <;> rfl
  | nextClick => exact onFloor_stepNextClick floor state
  | findSetup =>
      dsimp only
      unfold stepFindSetup
      rw [onFloor_entryPoint?]
      cases state.entryPoint? "setup" <;> rfl
  | findLoop =>
      dsimp only
      unfold stepFindLoop
      rw [onFloor_entryPoint?]
      cases state.entryPoint? "loop" <;> rfl
  | loopTop main => exact onFloor_stepLoopTop floor state main
  | value value =>
      obtain ⟨frame, rest, whole, above⟩ := top control rfl
      dsimp only
      rw [whole, above]
      exact onFloor_stepValue floor (state.popped rest) value frame
  | flow flow =>
      obtain ⟨frame, rest, whole, above⟩ := top control rfl
      dsimp only
      rw [whole, above]
      exact onFloor_stepFlow floor (state.popped rest) flow frame
  | raise interrupt =>
      obtain ⟨frame, rest, whole, above⟩ := top control rfl
      dsimp only
      rw [whole, above]
      exact onFloor_stepRaise floor (state.popped rest) frame
  | suspended | halted => rfl

end State

end LedSketch.Machine
