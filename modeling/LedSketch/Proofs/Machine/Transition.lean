import LedSketch.Machine.Step
import LedSketch.Proofs.Native.Effect

namespace LedSketch.Machine

/-!
# Transitions

What one step of a run can do.  Most steps only go on with the evaluation of the
script; the others make a native call, handle clicks, leave a frame, or belong to
the sequence of `setup` and the calls of `loop`.
-/

open Script

/-- Whether a frame belongs to the evaluation of expressions and statements. -/
def Frame.isPlain : Frame → Bool
  | .handlerCall => false
  | .delayEnd _ => false
  | .setupCall => false
  | .dispatchBeforeLoop _ => false
  | .loopCall _ => false
  | .iterationEnd _ => false
  | .topLevel => false
  | _ => true

/-- Whether a frame waits for the end of a click handler. -/
def Frame.isHandlerCall : Frame → Bool
  | .handlerCall => true
  | _ => false

/-- A frame of the evaluation waits for no handler. -/
theorem Frame.isHandlerCall_of_isPlain
    {frame : Frame}
    (plain : frame.isPlain = true) :
    frame.isHandlerCall = false := by
  cases frame <;> first | rfl | contradiction

/-- Whether a control belongs to the evaluation of expressions and statements. -/
def Control.isPlain : Control → Bool
  | .dispatch => false
  | .nextClick => false
  | .findSetup => false
  | .findLoop => false
  | .loopTop _ => false
  | .suspended => false
  | .halted _ => false
  | _ => true

/-- Whether a control calls a native function or a native method. -/
def Control.isNative : Control → Bool
  | .call (.builtin _) _ _ => true
  | .invoke (.object _) _ _ _ => true
  | _ => false

/-- What evaluation leaves as it is, and what it may put on the stack. -/
structure Local (state next : State) : Prop where
  board : next.world.board = state.world.board
  host : next.world.host = state.world.host
  dispatching : next.dispatching = state.dispatching
  iterations : next.iterations = state.iterations
  limit : next.limit = state.limit
  control : next.control.isPlain = true
  stack :
    ∃ pushed,
      next.stack = pushed ++ state.stack ∧
        ∀ frame ∈ pushed, frame.isPlain = true

namespace Local

variable {state next : State}

/-- The evaluation goes on with a part of it. -/
theorem goto
    {control : Control}
    (plain : control.isPlain = true) :
    Local state (state.goto control) :=
  ⟨rfl, rfl, rfl, rfl, rfl, plain, [], rfl, by simp⟩

theorem into
    {frame : Frame}
    {control : Control}
    (plainFrame : frame.isPlain = true)
    (plainControl : control.isPlain = true) :
    Local state (state.into frame control) :=
  ⟨rfl, rfl, rfl, rfl, rfl, plainControl, [frame], rfl, by simpa using plainFrame⟩

/-- A frame that does not take a result is put back. -/
theorem putBack
    {frame : Frame}
    {rest : List Frame}
    {control : Control}
    (top : state.stack = frame :: rest)
    (plain : control.isPlain = true) :
    Local state ((state.popped rest).into frame control) :=
  ⟨rfl, rfl, rfl, rfl, rfl, plain, [], top.symm, by simp⟩

/-- A frame of the evaluation may have been put on the stack before. -/
theorem of_push
    (frame : Frame)
    (plain : frame.isPlain = true)
    (onward : Local (state.push frame) next) :
    Local state next := by
  obtain ⟨pushed, grown, allPlain⟩ := onward.stack
  refine ⟨onward.board, onward.host, onward.dispatching, onward.iterations, onward.limit,
    onward.control, pushed ++ [frame], ?_, ?_⟩
  · simpa [State.push] using grown
  · intro other member
    rcases List.mem_append.mp member with inPushed | isFrame
    · exact allPlain other inPushed
    · rw [List.mem_singleton.mp isFrame]
      exact plain

/-- The scopes may have been changed before. -/
theorem of_withScopes
    {scopes : Scopes}
    (onward : Local (state.withScopes scopes) next) :
    Local state next :=
  ⟨onward.board, onward.host, onward.dispatching, onward.iterations, onward.limit,
    onward.control, onward.stack⟩

/-- The arrays may have been changed before. -/
theorem of_withHeap
    {heap : Heap}
    (onward : Local (state.withWorld { state.world with heap }) next) :
    Local state next :=
  ⟨onward.board, onward.host, onward.dispatching, onward.iterations, onward.limit,
    onward.control, onward.stack⟩

/-- The depth of calls is no concern of what is around the evaluation. -/
theorem withDepth
    (onward : Local state next)
    (depth : Nat) :
    Local state { next with depth } :=
  ⟨onward.board, onward.host, onward.dispatching, onward.iterations, onward.limit,
    onward.control, onward.stack⟩

theorem giveOperation
    (line : Nat)
    (result : Except TypeFault Value) :
    Local state (state.giveOperation line result) := by
  cases result <;> exact .goto rfl

/-- An expression leads to one of its parts, or to its value. -/
theorem stepEval (expr : Expr) : Local state (state.stepEval expr) := by
  cases expr with
  | int | float | text | bool | undefined => exact .goto rfl
  | array | assign | update | await | index => exact .goto rfl
  | unary | binary | logical | conditional | cast | member => exact .into rfl rfl
  | name line name =>
      unfold State.stepEval
      dsimp only
      split <;> exact .goto rfl
  | call line callee arguments => cases callee <;> exact .into rfl rfl

/-- A statement leads to one of its parts, or to its end. -/
theorem stepExec (stmt : Stmt) : Local state (state.stepExec stmt) := by
  cases stmt with
  | declare | function | breaks | continues | empty | whileLoop => exact .goto rfl
  | expr | branch | doLoop | switch => exact .into rfl rfl
  | block body => exact of_withScopes (.into rfl rfl)
  | forLoop init test steps body =>
      apply of_withScopes
      apply of_push .openScope rfl
      cases init with
      | nothing => exact .goto rfl
      | declare line declarators => exact .into rfl rfl
      | expr expr => exact of_push (.loopStart _) rfl (.into rfl rfl)
  | returns line value =>
      cases value with
      | none => exact .goto rfl
      | some expr => exact .into rfl rfl

theorem stepDeclare (declarators : List Declarator) :
    Local state (state.stepDeclare declarators) := by
  unfold State.stepDeclare
  split
  · exact .goto rfl
  · split
    · exact .into rfl rfl
    · exact of_withScopes (.goto rfl)

theorem stepTurn (loop : Loop) : Local state (state.stepTurn loop) := by
  unfold State.stepTurn
  split <;> exact .into rfl rfl

theorem stepSteps
    (loop : Loop)
    (rest : List Expr) :
    Local state (state.stepSteps loop rest) := by
  cases rest with
  | nil => exact .goto rfl
  | cons expr rest => exact .into rfl rfl

theorem enterCases (cases : List SwitchCase) : Local state (state.enterCases cases) := by
  unfold State.enterCases
  split
  · exact .goto rfl
  · exact of_withScopes (.into rfl rfl)

/-- Cases are compared within the evaluation. -/
theorem stepFindCase
    (value : Value)
    (rest cases : List SwitchCase) :
    Local state (state.stepFindCase value rest cases) := by
  unfold State.stepFindCase
  split
  · exact .enterCases _
  · split
    · exact .into rfl rfl
    · exact .goto rfl

theorem stepCases (rest : List SwitchCase) : Local state (state.stepCases rest) := by
  cases rest with
  | nil => exact .goto rfl
  | cons case rest => exact .into rfl rfl

theorem stepArrayItems
    (done : List Value)
    (rest : List Expr) :
    Local state (state.stepArrayItems done rest) := by
  cases rest with
  | nil => exact of_withHeap (.goto rfl)
  | cons item rest => exact .into rfl rfl

theorem stepArguments
    (line : Nat)
    (callee : Callee)
    (done : List Value)
    (rest : List Expr) :
    Local state (state.stepArguments line callee done rest) := by
  cases rest with
  | nil => cases callee <;> exact .goto rfl
  | cons argument rest => exact .into rfl rfl

/-- A target leads to its parts, or to its place. -/
theorem stepResolve
    (target : Expr)
    (use : PlaceUse) :
    Local state (state.stepResolve target use) := by
  unfold State.stepResolve
  split
  · exact .goto rfl
  · exact .into rfl rfl
  · exact .goto rfl

/-- A value is stored in a scope or an array, and the board stays as it is. -/
theorem storeAndGive
    (line : Nat)
    (place : Place)
    (stored given : Value) :
    Local state (state.storeAndGive line place stored given) := by
  unfold State.storeAndGive State.writePlace
  rcases place with name | ⟨array, position⟩
  · dsimp only
    cases state.scopes.set? name stored with
    | none => exact .goto rfl
    | some scopes => exact of_withScopes (.goto rfl)
  · exact of_withHeap (.goto rfl)

theorem finishAssign
    (line : Nat)
    (op : Option BinaryOp)
    (place : Place)
    (value : Value) :
    Local state (state.finishAssign line op place value) := by
  unfold State.finishAssign
  split
  · exact .storeAndGive ..
  · split
    · exact .goto rfl
    · split
      · exact .goto rfl
      · exact .storeAndGive ..

theorem finishUpdate
    (line : Nat)
    (step : Script.Step)
    (fixity : Fixity)
    (place : Place) :
    Local state (state.finishUpdate line step fixity place) := by
  unfold State.finishUpdate
  split
  · exact .goto rfl
  · split
    · exact .goto rfl
    · exact .storeAndGive ..

theorem stepUse
    (place : Place)
    (use : PlaceUse) :
    Local state (state.stepUse place use) := by
  cases use with
  | read line =>
      unfold State.stepUse
      dsimp only
      split <;> exact .goto rfl
  | assign line op value => exact .into rfl rfl
  | update line step fixity => exact .finishUpdate ..

/-- A function is entered within the evaluation. -/
theorem enterFunction
    (closure : Closure)
    (arguments : List Value)
    (line : Nat) :
    Local state (state.enterFunction closure arguments line) := by
  unfold State.enterFunction
  split
  · exact .goto rfl
  · split
    · exact .withDepth (of_withScopes (.into rfl rfl)) _
    · exact .goto rfl

theorem stepBind
    (parameters : List Parameter)
    (arguments : List Value)
    (body : List Stmt) :
    Local state (state.stepBind parameters arguments body) := by
  unfold State.stepBind
  split
  · exact .goto rfl
  · split
    · exact of_withScopes (.goto rfl)
    · split
      · exact .into rfl rfl
      · exact of_withScopes (.goto rfl)

end Local

/-- What one step can make of a state. -/
inductive Transition (state : State) : State → Prop where
  /-- A paused run stays as it is. -/
  | rest
      (paused : state.paused = true) :
      Transition state state
  /-- Evaluation goes on. -/
  | work
      {next : State}
      (plain : state.control.isPlain = true)
      (onward : Local state next) :
      Transition state next
  /-- Evaluation goes on with a frame that takes a value or a completion. -/
  | take
      {next : State}
      {frame : Frame}
      {rest : List Frame}
      (plain : state.control.isPlain = true)
      (top : state.stack = frame :: rest)
      (plainFrame : frame.isPlain = true)
      (onward : Local (state.popped rest) next) :
      Transition state next
  /-- An interrupt passes a frame. -/
  | unwind
      {interrupt : Interrupt}
      {frame : Frame}
      {rest : List Frame}
      (scopes : Scopes)
      (depth : Nat)
      (raised : state.control = .raise interrupt)
      (top : state.stack = frame :: rest)
      (other : frame.isHandlerCall = false) :
      Transition state { state with stack := rest, scopes, depth }
  /-- A native call returns or fails. -/
  | native
      {world : World}
      {next : State}
      (plain : state.control.isPlain = true)
      (effects : Native.Effects state.world world)
      (onward : Local (state.withWorld world) next)
      (called : state.control.isNative = true) :
      Transition state next
  /-- A delay hands control to the host. -/
  | delay
      {world : World}
      (line : Nat)
      (plain : state.control.isPlain = true)
      (effects : Native.Effects state.world world)
      (called : state.control.isNative = true) :
      Transition state ((state.withWorld world).into (.delayEnd line) .suspended)
  /-- The current run handles clicks after a delay. -/
  | delayReturns
      {value : Value}
      {line : Nat}
      {rest : List Frame}
      (given : state.control = .value value)
      (top : state.stack = .delayEnd line :: rest)
      (live : state.live = true) :
      Transition state ((state.popped rest).goto .dispatch)
  | delayStale
      {value : Value}
      {line : Nat}
      {rest : List Frame}
      (given : state.control = .value value)
      (top : state.stack = .delayEnd line :: rest)
      (stale : state.live = false) :
      Transition state ((state.popped rest).stop .superseded)
  /-- While a handler is at work no click is taken. -/
  | dispatchBusy
      (asked : state.control = .dispatch)
      (busy : state.dispatching = true) :
      Transition state (state.give .undefined)
  | dispatchBegins
      (asked : state.control = .dispatch)
      (idle : state.dispatching = false) :
      Transition state { state with control := .nextClick, dispatching := true }
  | clicksDone
      (selecting : state.control = .nextClick)
      (nothing : state.world.host.clicks.take? = none) :
      Transition state { state with control := .value .undefined, dispatching := false }
  | clickIgnored
      {id : Nat}
      {clicks : ClickQueue}
      (selecting : state.control = .nextClick)
      (taken : state.world.host.clicks.take? = some (id, clicks))
      (unhandled : State.handlerOf? state.world.board id = none) :
      Transition state
        (state.withWorld { state.world with
          host := { state.world.host with clicks }.record (.clickIgnored id) })
  | clickHandled
      {id : Nat}
      {clicks : ClickQueue}
      {label : String}
      {handler : Value}
      (selecting : state.control = .nextClick)
      (taken : state.world.host.clicks.take? = some (id, clicks))
      (handled : State.handlerOf? state.world.board id = some (label, handler))
      (live : state.live = true) :
      Transition state
        ((state.withWorld { state.world with
            host := { state.world.host with clicks }.record (.buttonClicked id label) }).into
          .handlerCall (.call handler [] (State.handlerLine handler)))
  /-- A stale run takes a click, but does not handle it. -/
  | clickStale
      {id : Nat}
      {clicks : ClickQueue}
      {label : String}
      {handler : Value}
      (selecting : state.control = .nextClick)
      (taken : state.world.host.clicks.take? = some (id, clicks))
      (handled : State.handlerOf? state.world.board id = some (label, handler))
      (stale : state.live = false) :
      Transition state
        { (state.withWorld { state.world with
            host := { state.world.host with clicks }.record (.buttonClicked id label) }).stop
          .superseded with
          dispatching := false }
  | handlerReturns
      {value : Value}
      {rest : List Frame}
      (given : state.control = .value value)
      (top : state.stack = .handlerCall :: rest) :
      Transition state ((state.popped rest).goto .nextClick)
  | handlerFails
      {interrupt : Interrupt}
      {rest : List Frame}
      (raised : state.control = .raise interrupt)
      (top : state.stack = .handlerCall :: rest) :
      Transition state { state.popped rest with dispatching := false }
  /-- The top level of the program has completed. -/
  | programEnds
      {rest : List Frame}
      (completed : state.control = .flow .normal)
      (top : state.stack = .topLevel :: rest) :
      Transition state ((state.popped rest).goto .findSetup)
  /-- A statement has left the top level of the program. -/
  | programLeft
      {flow : Flow}
      {rest : List Frame}
      (fault : RuntimeFault)
      (completed : state.control = .flow flow)
      (top : state.stack = .topLevel :: rest) :
      Transition state ((state.popped rest).fault 0 fault)
  | setupFound
      {setup : Value}
      (asked : state.control = .findSetup)
      (found : state.entryPoint? "setup" = some setup) :
      Transition state (state.into .setupCall (.call setup [] 0))
  | setupMissing
      (asked : state.control = .findSetup)
      (missing : state.entryPoint? "setup" = none) :
      Transition state (state.goto .findLoop)
  | setupReturns
      {value : Value}
      {rest : List Frame}
      (given : state.control = .value value)
      (top : state.stack = .setupCall :: rest) :
      Transition state ((state.popped rest).goto .findLoop)
  | loopFound
      {main : Value}
      (asked : state.control = .findLoop)
      (found : state.entryPoint? "loop" = some main) :
      Transition state (state.goto (.loopTop main))
  | loopMissing
      (asked : state.control = .findLoop)
      (missing : state.entryPoint? "loop" = none) :
      Transition state state.finish
  | iterationBegins
      {main : Value}
      (asked : state.control = .loopTop main)
      (live : state.live = true)
      (allowed : state.limitReached = false) :
      Transition state (state.into (.dispatchBeforeLoop main) .dispatch)
  | iterationsDone
      {main : Value}
      (asked : state.control = .loopTop main)
      (live : state.live = true)
      (reached : state.limitReached = true) :
      Transition state state.finish
  | loopStale
      {main : Value}
      (asked : state.control = .loopTop main)
      (stale : state.live = false) :
      Transition state (state.stop .superseded)
  | loopCalled
      {main value : Value}
      {rest : List Frame}
      (given : state.control = .value value)
      (top : state.stack = .dispatchBeforeLoop main :: rest) :
      Transition state ((state.popped rest).into (.loopCall main) (.call main [] 0))
  /-- Each finished call of `loop` hands control to the host. -/
  | loopReturns
      {main value : Value}
      {rest : List Frame}
      (given : state.control = .value value)
      (top : state.stack = .loopCall main :: rest) :
      Transition state
        { (state.popped rest).into (.iterationEnd main) .suspended with
          iterations := state.iterations + 1 }
  | iterationEnds
      {main value : Value}
      {rest : List Frame}
      (given : state.control = .value value)
      (top : state.stack = .iterationEnd main :: rest) :
      Transition state ((state.popped rest).goto (.loopTop main))
  /-- Nothing is left that could take a result. -/
  | finishes
      (plain : state.control.isPlain = true)
      (empty : state.stack = []) :
      Transition state state.finish
  | fails
      {interrupt : Interrupt}
      (raised : state.control = .raise interrupt)
      (empty : state.stack = []) :
      Transition state (state.goto (.halted (.ofInterrupt interrupt)))

namespace Transition

variable {state : State}

/-- A native call changes the world, or ends in a pause. -/
theorem callNative
    {builtin : Builtin}
    {arguments : List Value}
    {line : Nat}
    (plain : state.control.isPlain = true)
    (called : state.control.isNative = true) :
    Transition state (state.callNative builtin arguments line) := by
  have effects := Native.Acts.compositional.callBuiltin builtin arguments state.world
  unfold State.callNative
  split
  · next value world ran =>
      rw [ran] at effects
      exact .native plain effects (.goto rfl) called
  · next world ran =>
      rw [ran] at effects
      exact .delay line plain effects called
  · next fault world ran =>
      rw [ran] at effects
      exact .native plain effects (.goto rfl) called

/-- A call enters a function or is native. -/
theorem stepCall
    {callee : Value}
    {arguments : List Value}
    {line : Nat}
    (asked : state.control = .call callee arguments line) :
    Transition state (state.stepCall callee arguments line) := by
  have plain : state.control.isPlain = true := by rw [asked]; rfl
  cases callee with
  | function closure => exact .work plain (.enterFunction ..)
  | builtin builtin => exact .callNative plain (by rw [asked]; rfl)
  | _ => exact .work plain (.goto rfl)

/-- A method is a native call. -/
theorem stepInvoke
    {object : Value}
    {name : String}
    {arguments : List Value}
    {line : Nat}
    (asked : state.control = .invoke object name arguments line) :
    Transition state (state.stepInvoke object name arguments line) := by
  have plain : state.control.isPlain = true := by rw [asked]; rfl
  cases object with
  | object handle =>
      have called : state.control.isNative = true := by rw [asked]; rfl
      have effects := Native.Acts.compositional.callMethod handle name arguments state.world
      unfold State.stepInvoke
      dsimp only
      split
      · next value world ran =>
          rw [ran] at effects
          exact .native plain effects (.goto rfl) called
      · next fault world ran =>
          rw [ran] at effects
          exact .native plain effects (.goto rfl) called
  | _ => exact .work plain (.goto rfl)

/-- A dispatch begins to take clicks, unless one is going on. -/
theorem stepDispatch (asked : state.control = .dispatch) :
    Transition state state.stepDispatch := by
  unfold State.stepDispatch
  split
  · next busy => exact .dispatchBusy asked busy
  · next idle => exact .dispatchBegins asked (Bool.eq_false_iff.mpr idle)

/-- A click is taken from the queue, or there are none left. -/
theorem stepNextClick (selecting : state.control = .nextClick) :
    Transition state state.stepNextClick := by
  unfold State.stepNextClick
  dsimp only
  split
  · next nothing => exact .clicksDone selecting nothing
  · next id clicks taken =>
      split
      · next unhandled => exact .clickIgnored selecting taken unhandled
      · next label handler handled =>
          split
          · next live => exact .clickHandled selecting taken handled live
          · next stale =>
              exact .clickStale selecting taken handled (Bool.eq_false_iff.mpr stale)

/-- The function `setup` is called, if the script has one. -/
theorem stepFindSetup (asked : state.control = .findSetup) :
    Transition state state.stepFindSetup := by
  unfold State.stepFindSetup
  split
  · next found => exact .setupFound asked found
  · next missing => exact .setupMissing asked missing

/-- The calls of `loop` begin, if the script has such a function. -/
theorem stepFindLoop (asked : state.control = .findLoop) :
    Transition state state.stepFindLoop := by
  unfold State.stepFindLoop
  split
  · next found => exact .loopFound asked found
  · next missing => exact .loopMissing asked missing

/-- The calls of `loop` end at the limit. -/
theorem stepLoopTop
    {main : Value}
    (asked : state.control = .loopTop main) :
    Transition state (state.stepLoopTop main) := by
  unfold State.stepLoopTop
  split
  · next live =>
      split
      · next reached => exact .iterationsDone asked live reached
      · next allowed => exact .iterationBegins asked live (Bool.eq_false_iff.mpr allowed)
  · next stale => exact .loopStale asked (Bool.eq_false_iff.mpr stale)

/-- A value goes to the evaluation, or ends a call from outside of the script. -/
theorem stepValue
    {value : Value}
    {frame : Frame}
    {rest : List Frame}
    (given : state.control = .value value)
    (top : state.stack = frame :: rest) :
    Transition state ((state.popped rest).stepValue value frame) := by
  have plain : state.control.isPlain = true := by rw [given]; rfl
  cases frame with
  | handlerCall => exact .handlerReturns given top
  | delayEnd line =>
      unfold State.stepValue
      dsimp only
      split
      · next live => exact .delayReturns given top live
      · next stale => exact .delayStale given top (Bool.eq_false_iff.mpr stale)
  | setupCall => exact .setupReturns given top
  | dispatchBeforeLoop main => exact .loopCalled given top
  | loopCall main => exact .loopReturns given top
  | iterationEnd main => exact .iterationEnds given top
  | blockRest | openScope | loopStart | loopBody | caseRest | activation | topLevel =>
      exact .work plain (.putBack top rfl)
  | arrayItem | conditionalTest | callTarget | methodObject | callArgument | discarded
  | loopStep | switchValue | returnedValue | logicalRight =>
      exact .take plain top rfl (.goto rfl)
  | unaryOperand | rightOperand | castOperand =>
      exact .take plain top rfl (.giveOperation ..)
  | leftOperand | indexedObject => exact .take plain top rfl (.into rfl rfl)
  | declaredValue | defaultValue => exact .take plain top rfl (.of_withScopes (.goto rfl))
  | assignedValue => exact .take plain top rfl (.finishAssign ..)
  | logicalLeft op right =>
      refine .take plain top rfl ?_
      unfold State.stepValue
      dsimp only
      split
      · exact .goto rfl
      · exact .goto rfl
      · exact .into rfl rfl
  | memberObject line name =>
      refine .take plain top rfl ?_
      unfold State.stepValue
      dsimp only
      split <;> exact .goto rfl
  | indexPosition line object use =>
      refine .take plain top rfl ?_
      unfold State.stepValue
      dsimp only
      split
      · exact .goto rfl
      · split <;> exact .goto rfl
  | branchTest whenTrue whenFalse =>
      refine .take plain top rfl ?_
      unfold State.stepValue
      dsimp only
      split
      · exact .goto rfl
      · split <;> exact .goto rfl
  | loopTest loop =>
      refine .take plain top rfl ?_
      unfold State.stepValue
      dsimp only
      split
      · exact .into rfl rfl
      · exact .goto rfl
  | switchTest wanted others cases =>
      refine .take plain top rfl ?_
      unfold State.stepValue
      dsimp only
      split
      · exact .enterCases _
      · exact .goto rfl

/-- A completed statement goes to the evaluation, or ends the script. -/
theorem stepFlow
    {flow : Flow}
    {frame : Frame}
    {rest : List Frame}
    (completed : state.control = .flow flow)
    (top : state.stack = frame :: rest) :
    Transition state ((state.popped rest).stepFlow flow frame) := by
  have plain : state.control.isPlain = true := by rw [completed]; rfl
  cases frame with
  | blockRest | loopStart | caseRest | loopBody =>
      refine .take plain top rfl ?_
      cases flow <;> exact .goto rfl
  | openScope => exact .take plain top rfl (.of_withScopes (.goto rfl))
  | activation outerDepth =>
      exact .take plain top rfl (.withDepth (.of_withScopes (.goto rfl)) outerDepth)
  | topLevel =>
      cases flow with
      | normal => exact .programEnds completed top
      | returned | broke | continued => exact .programLeft _ completed top
  | _ => exact .work plain (.putBack top rfl)

/-- A raised interrupt leaves one frame, which may be that of a handler. -/
theorem stepRaise
    {interrupt : Interrupt}
    {frame : Frame}
    {rest : List Frame}
    (raised : state.control = .raise interrupt)
    (top : state.stack = frame :: rest) :
    Transition state ((state.popped rest).stepRaise frame) := by
  cases frame with
  | handlerCall => exact .handlerFails raised top
  | openScope => exact .unwind state.scopes.pop state.depth raised top rfl
  | activation outerDepth => exact .unwind state.scopes.pop outerDepth raised top rfl
  | _ => exact .unwind state.scopes state.depth raised top rfl

end Transition

/-- Every step is one of the transitions. -/
theorem State.transition_step (state : State) : Transition state state.step := by
  have plainIf {control : Control}
      (same : state.control = control)
      (plain : control.isPlain = true) :
      state.control.isPlain = true := by
    rw [same]
    exact plain
  unfold State.step
  cases control : state.control with
  | eval expr => exact .work (plainIf control rfl) (.stepEval expr)
  | exec stmt => exact .work (plainIf control rfl) (.stepExec stmt)
  | enterBlock body =>
      exact .work (plainIf control rfl) ⟨rfl, rfl, rfl, rfl, rfl, rfl, [], rfl, by simp⟩
  | statements rest =>
      cases rest with
      | nil => exact .work (plainIf control rfl) (.goto rfl)
      | cons stmt rest => exact .work (plainIf control rfl) (.into rfl rfl)
  | declare declarators => exact .work (plainIf control rfl) (.stepDeclare declarators)
  | turn loop => exact .work (plainIf control rfl) (.stepTurn loop)
  | steps loop rest => exact .work (plainIf control rfl) (.stepSteps loop rest)
  | findCase value rest cases =>
      exact .work (plainIf control rfl) (.stepFindCase value rest cases)
  | cases rest => exact .work (plainIf control rfl) (.stepCases rest)
  | arrayItems done rest => exact .work (plainIf control rfl) (.stepArrayItems done rest)
  | collectArguments line callee done rest =>
      exact .work (plainIf control rfl) (.stepArguments line callee done rest)
  | resolve target use => exact .work (plainIf control rfl) (.stepResolve target use)
  | use place use => exact .work (plainIf control rfl) (.stepUse place use)
  | call callee arguments line => exact .stepCall control
  | invoke object name arguments line => exact .stepInvoke control
  | bindParameters parameters arguments body =>
      exact .work (plainIf control rfl) (.stepBind parameters arguments body)
  | dispatch => exact .stepDispatch control
  | nextClick => exact .stepNextClick control
  | findSetup => exact .stepFindSetup control
  | findLoop => exact .stepFindLoop control
  | loopTop main => exact .stepLoopTop control
  | value value =>
      cases top : state.stack with
      | nil => exact .finishes (plainIf control rfl) top
      | cons frame rest => exact .stepValue control top
  | flow flow =>
      cases top : state.stack with
      | nil => exact .finishes (plainIf control rfl) top
      | cons frame rest => exact .stepFlow control top
  | raise interrupt =>
      cases top : state.stack with
      | nil => exact .fails control top
      | cons frame rest => exact .stepRaise control top
  | suspended => exact .rest (by rw [State.paused, control])
  | halted outcome => exact .rest (by rw [State.paused, control])

end LedSketch.Machine
