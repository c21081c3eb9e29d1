import LedSketch.Proofs.Machine.Transition

namespace LedSketch

/-!
# Causes of failures, jumps and calls

Most of what a step leads to depends on the values that it works with.  Jumps come from a
statement that is executed, and some faults have one cause each: a call that cannot begin,
or a statement that leaves the top level of the program.  A call is made by the script once
its arguments are known, or for the host: of `setup`, of `loop` or of a handler.
-/

/-- Whether a fault is about the values that a step works with. -/
def Script.RuntimeFault.isOrdinary : Script.RuntimeFault → Bool
  | .callsExhausted => false
  | .outlivedScope _ => false
  | .strayReturn => false
  | .strayBreak => false
  | _ => true

/-- Whether an interrupt has no other cause than the values that a step works with. -/
def Script.Interrupt.isOrdinary : Script.Interrupt → Bool
  | .failed (.runtime _ fault) => fault.isOrdinary
  | _ => true

namespace Machine

open Script

/-- The jump that a statement makes. -/
def jump? : Stmt → Option Flow
  | .breaks _ => some .broke
  | .continues _ => some .continued
  | _ => none

/-- Whether a frame hands a jump on to the frames below it. -/
def Frame.lets
    (flow : Flow) :
    Frame → Bool
  | .blockRest _ => true
  | .openScope => true
  | .loopStart _ => true
  | .caseRest _ =>
      match flow with
      | .continued => true
      | _ => false
  | _ => false

/-- Whether a control makes no jump and no call, and raises only ordinary interrupts. -/
def Control.isOrdinary : Control → Bool
  | .raise interrupt => interrupt.isOrdinary
  | .call _ _ _ => false
  | .flow .broke => false
  | .flow .continued => false
  | _ => true

/-- The failure that a control raises, or with which it is halted. -/
def Control.failure? : Control → Option Failure
  | .raise (.failed failure) => some failure
  | .halted (.failed failure) => some failure
  | _ => none

/-- Why a step leads to a control. -/
inductive Cause (state : State) : Control → Prop where
  | ordinary
      {control : Control}
      (ordinary : control.isOrdinary = true) :
      Cause state control
  | jumps
      {stmt : Stmt}
      {flow : Flow}
      (executes : state.control = .exec stmt)
      (jump : jump? stmt = some flow) :
      Cause state (.flow flow)
  | jumpsOn
      {flow : Flow}
      {frame : Frame}
      {rest : List Frame}
      (jumping : state.control = .flow flow)
      (top : state.stack = frame :: rest)
      (lets : frame.lets flow = true) :
      Cause state (.flow flow)
  | passes
      {interrupt : Interrupt}
      (raised : state.control = .raise interrupt) :
      Cause state (.raise interrupt)
  /-- A function is called from the deepest call that there may be. -/
  | exhausted
      {closure : Closure}
      {arguments : List Value}
      {line : Nat}
      (asked : state.control = .call (.function closure) arguments line)
      (deep : deepestCall ≤ state.depth) :
      Cause state (.raise (.runtime line .callsExhausted))
  /-- A function is called whose scope has been closed. -/
  | outlived
      {closure : Closure}
      {arguments : List Value}
      {line : Nat}
      (asked : state.control = .call (.function closure) arguments line)
      (closed : state.scopes.isOpen closure.scope = false) :
      Cause state (.raise (.runtime line (.outlivedScope closure.function.name)))
  | strayReturn
      {value : Value}
      {rest : List Frame}
      (completed : state.control = .flow (.returned value))
      (top : state.stack = .topLevel :: rest) :
      Cause state (.raise (.runtime 0 .strayReturn))
  | strayBreak
      {flow : Flow}
      {rest : List Frame}
      (completed : state.control = .flow flow)
      (jumping : flow = .broke ∨ flow = .continued)
      (top : state.stack = .topLevel :: rest) :
      Cause state (.raise (.runtime 0 .strayBreak))
  /-- The script calls a value with the arguments that it has evaluated. -/
  | calls
      {line : Nat}
      {callee : Value}
      {done : List Value}
      (collected : state.control = .collectArguments line (.function callee) done []) :
      Cause state (.call callee done.reverse line)
  | callsSetup
      {setup : Value}
      (asked : state.control = .findSetup)
      (found : state.entryPoint? "setup" = some setup) :
      Cause state (.call setup [] 0)
  | callsLoop
      {value main : Value}
      {rest : List Frame}
      (given : state.control = .value value)
      (top : state.stack = .dispatchBeforeLoop main :: rest) :
      Cause state (.call main [] 0)
  | callsHandler
      {id : Nat}
      {clicks : ClickQueue}
      {label : String}
      {handler : Value}
      (selecting : state.control = .nextClick)
      (taken : state.world.host.clicks.take? = some (id, clicks))
      (handled : State.handlerOf? state.world.board id = some (label, handler))
      (live : state.live = true) :
      Cause state (.call handler [] (State.handlerLine handler))

namespace State

variable (state : State)

theorem ordinary_giveOperation
    (line : Nat)
    (computed : Except TypeFault Value) :
    (state.giveOperation line computed).control.isOrdinary = true := by
  cases computed <;> rfl

theorem ordinary_stepEval (expr : Expr) : (state.stepEval expr).control.isOrdinary = true := by
  cases expr with
  | name line name =>
      unfold stepEval
      dsimp only
      split <;> rfl
  | call line callee arguments => cases callee <;> rfl
  | _ => rfl

/-- A statement that jumps completes at once. -/
theorem cause_stepExec
    {stmt : Stmt}
    (executes : state.control = .exec stmt) :
    Cause state (state.stepExec stmt).control := by
  cases stmt with
  | breaks | continues => exact .jumps executes rfl
  | forLoop init test steps body => cases init <;> exact .ordinary rfl
  | returns line value => cases value <;> exact .ordinary rfl
  | _ => exact .ordinary rfl

theorem ordinary_stepDeclare (declarators : List Declarator) :
    (state.stepDeclare declarators).control.isOrdinary = true := by
  unfold stepDeclare
  split
  · rfl
  · split <;> rfl

theorem ordinary_enterCases (cases : List SwitchCase) :
    (state.enterCases cases).control.isOrdinary = true := by
  cases cases <;> rfl

theorem ordinary_stepFindCase
    (value : Value)
    (rest all : List SwitchCase) :
    (state.stepFindCase value rest all).control.isOrdinary = true := by
  unfold stepFindCase
  split
  · exact ordinary_enterCases state _
  · split <;> rfl

/-- A place that cannot be stored in is an ordinary fault. -/
theorem ordinary_storeAndGive
    (line : Nat)
    (place : Place)
    (stored given : Value) :
    (state.storeAndGive line place stored given).control.isOrdinary = true := by
  unfold storeAndGive writePlace
  rcases place with name | ⟨id, position⟩
  · dsimp only
    cases state.scopes.set? name stored <;> rfl
  · rfl

/-- A place that cannot be read is an ordinary fault. -/
theorem ordinary_readPlace
    {fault : RuntimeFault}
    (place : Place)
    (failed : state.readPlace place = .error fault) :
    fault.isOrdinary = true := by
  unfold readPlace at failed
  split at failed
  · split at failed
    · contradiction
    · cases failed
      rfl
  · contradiction

theorem ordinary_finishAssign
    (line : Nat)
    (op : Option BinaryOp)
    (place : Place)
    (value : Value) :
    (state.finishAssign line op place value).control.isOrdinary = true := by
  unfold finishAssign
  split
  · exact ordinary_storeAndGive ..
  · split
    · next failed => exact ordinary_readPlace state place failed
    · split
      · rfl
      · exact ordinary_storeAndGive ..

theorem ordinary_stepUse
    (place : Place)
    (wanted : PlaceUse) :
    (state.stepUse place wanted).control.isOrdinary = true := by
  cases wanted with
  | assign line op value => rfl
  | read line =>
      unfold stepUse
      dsimp only
      split
      · rfl
      · next failed => exact ordinary_readPlace state place failed
  | update line step fixity =>
      unfold stepUse finishUpdate
      dsimp only
      split
      · next failed => exact ordinary_readPlace state place failed
      · split
        · rfl
        · exact ordinary_storeAndGive ..

/-- The faults of native calls are ordinary. -/
theorem ordinary_ofCall
    (line : Nat)
    (fault : CallFault) :
    (Interrupt.ofCall line fault).isOrdinary = true := by
  cases fault <;> rfl

/-- A native call has a value, an ordinary fault, or a pause. -/
theorem ordinary_callNative
    (builtin : Builtin)
    (arguments : List Value)
    (line : Nat) :
    (state.callNative builtin arguments line).control.isOrdinary = true := by
  unfold callNative
  split
  · rfl
  · rfl
  · exact ordinary_ofCall ..

/-- A call enters a function, unless its scope is closed or the calls are too deep. -/
theorem cause_stepCall
    {callee : Value}
    {arguments : List Value}
    {line : Nat}
    (asked : state.control = .call callee arguments line) :
    Cause state (state.stepCall callee arguments line).control := by
  cases callee with
  | function closure =>
      unfold stepCall enterFunction
      dsimp only
      split
      · next deep => exact .exhausted asked deep
      · split
        · exact .ordinary rfl
        · next closed => exact .outlived asked (Bool.eq_false_iff.mpr closed)
  | builtin builtin => exact .ordinary (ordinary_callNative ..)
  | _ => exact .ordinary rfl

theorem ordinary_stepInvoke
    (object : Value)
    (name : String)
    (arguments : List Value)
    (line : Nat) :
    (state.stepInvoke object name arguments line).control.isOrdinary = true := by
  cases object with
  | object handle =>
      unfold stepInvoke
      dsimp only
      split
      · rfl
      · exact ordinary_ofCall ..
  | _ => rfl

theorem ordinary_stepBind
    (parameters : List Parameter)
    (arguments : List Value)
    (body : List Stmt) :
    (state.stepBind parameters arguments body).control.isOrdinary = true := by
  unfold stepBind
  split
  · rfl
  · split
    · rfl
    · split <;> rfl

/-- A click calls a handler on the line of its declaration. -/
theorem cause_stepNextClick (selecting : state.control = .nextClick) :
    Cause state state.stepNextClick.control := by
  unfold stepNextClick
  dsimp only
  split
  · exact .ordinary rfl
  · next id clicks taken =>
      split
      · exact .ordinary (congrArg Control.isOrdinary selecting)
      · next label handler handled =>
          split
          · next live => exact .callsHandler selecting taken handled live
          · exact .ordinary rfl

/-- The function `setup` is called from outside of the script. -/
theorem cause_stepFindSetup (asked : state.control = .findSetup) :
    Cause state state.stepFindSetup.control := by
  unfold stepFindSetup
  split
  · next setup found => exact .callsSetup asked found
  · exact .ordinary rfl

theorem ordinary_stepLoopTop (main : Value) :
    (state.stepLoopTop main).control.isOrdinary = true := by
  unfold stepLoopTop
  split
  · split <;> rfl
  · rfl

/-- A missing element is an ordinary fault. -/
theorem ordinary_elementPlace
    {heap : Heap}
    {object : Value}
    {position : Int64}
    {fault : RuntimeFault}
    (failed : elementPlace heap object position = .error fault) :
    fault.isOrdinary = true := by
  unfold elementPlace at failed
  split at failed
  · split at failed <;> cases failed
    rfl
  · cases failed
    rfl

/-- A frame goes on with a value in an ordinary way, unless it calls `loop`. -/
theorem ordinary_stepValue
    {frame : Frame}
    (value : Value)
    (notBeforeCall : ∀ main, frame ≠ .dispatchBeforeLoop main) :
    (state.stepValue value frame).control.isOrdinary = true := by
  cases frame with
  | unaryOperand | rightOperand | castOperand => exact ordinary_giveOperation ..
  | assignedValue => exact ordinary_finishAssign ..
  | logicalLeft op right =>
      unfold stepValue
      dsimp only
      split <;> rfl
  | memberObject line name =>
      unfold stepValue
      dsimp only
      split <;> rfl
  | indexPosition line object wanted =>
      unfold stepValue
      dsimp only
      split
      · rfl
      · split
        · rfl
        · next failed => exact ordinary_elementPlace failed
  | branchTest whenTrue whenFalse =>
      unfold stepValue
      dsimp only
      split
      · rfl
      · split <;> rfl
  | loopTest loop =>
      unfold stepValue
      dsimp only
      split <;> rfl
  | switchTest wanted rest cases =>
      unfold stepValue
      dsimp only
      split
      · exact ordinary_enterCases ..
      · rfl
  | delayEnd line =>
      unfold stepValue
      dsimp only
      split <;> rfl
  | dispatchBeforeLoop main => exact (notBeforeCall main rfl).elim
  | _ => rfl

theorem cause_stepValue
    {value : Value}
    {frame : Frame}
    {rest : List Frame}
    (given : state.control = .value value)
    (top : state.stack = frame :: rest) :
    Cause state ((state.popped rest).stepValue value frame).control := by
  by_cases beforeCall : ∃ main, frame = .dispatchBeforeLoop main
  · obtain ⟨main, rfl⟩ := beforeCall
    exact .callsLoop given top
  · exact .ordinary (ordinary_stepValue _ value fun main same => beforeCall ⟨main, same⟩)

/-- A completed statement is handed on, or has come to the end of a function or the script. -/
theorem cause_stepFlow
    {flow : Flow}
    {frame : Frame}
    {rest : List Frame}
    (completed : state.control = .flow flow)
    (top : state.stack = frame :: rest) :
    Cause state ((state.popped rest).stepFlow flow frame).control := by
  cases frame with
  | topLevel =>
      cases flow with
      | normal => exact .ordinary rfl
      | returned value => exact .strayReturn completed top
      | broke => exact .strayBreak completed (.inl rfl) top
      | continued => exact .strayBreak completed (.inr rfl) top
  | blockRest | openScope | loopStart =>
      cases flow with
      | normal | returned => exact .ordinary rfl
      | broke | continued => exact .jumpsOn completed top rfl
  | caseRest rest =>
      cases flow with
      | normal | returned | broke => exact .ordinary rfl
      | continued => exact .jumpsOn completed top rfl
  | loopBody loop => cases flow <;> exact .ordinary rfl
  | _ => exact .ordinary rfl

/-- Whatever a step leads to is ordinary, or it has one of the other causes. -/
theorem cause_step : Cause state state.step.control := by
  unfold step
  cases control : state.control with
  | eval expr => exact .ordinary (ordinary_stepEval state expr)
  | exec stmt => exact cause_stepExec state control
  | enterBlock body => exact .ordinary rfl
  | statements rest => cases rest <;> exact .ordinary rfl
  | declare declarators => exact .ordinary (ordinary_stepDeclare state declarators)
  | turn loop =>
      dsimp only
      unfold stepTurn
      split <;> exact .ordinary rfl
  | steps loop rest => cases rest <;> exact .ordinary rfl
  | findCase value rest all => exact .ordinary (ordinary_stepFindCase state value rest all)
  | cases rest => cases rest <;> exact .ordinary rfl
  | arrayItems done rest => cases rest <;> exact .ordinary rfl
  | collectArguments line callee done rest =>
      cases rest with
      | nil =>
          cases callee with
          | function callee => exact .calls control
          | method object name => exact .ordinary rfl
      | cons argument rest => exact .ordinary rfl
  | resolve target wanted =>
      dsimp only
      unfold stepResolve
      split <;> exact .ordinary rfl
  | use place wanted => exact .ordinary (ordinary_stepUse state place wanted)
  | call callee arguments line => exact cause_stepCall state control
  | invoke object name arguments line =>
      exact .ordinary (ordinary_stepInvoke state object name arguments line)
  | bindParameters parameters arguments body =>
      exact .ordinary (ordinary_stepBind state parameters arguments body)
  | dispatch =>
      dsimp only
      unfold stepDispatch
      split <;> exact .ordinary rfl
  | nextClick => exact cause_stepNextClick state control
  | findSetup => exact cause_stepFindSetup state control
  | findLoop =>
      dsimp only
      unfold stepFindLoop
      split <;> exact .ordinary rfl
  | loopTop main => exact .ordinary (ordinary_stepLoopTop state main)
  | value value =>
      cases top : state.stack with
      | nil => exact .ordinary rfl
      | cons frame rest => exact cause_stepValue state control top
  | flow flow =>
      cases top : state.stack with
      | nil => exact .ordinary rfl
      | cons frame rest => exact cause_stepFlow state control top
  | raise interrupt =>
      cases top : state.stack with
      | nil => exact .ordinary rfl
      | cons frame rest =>
          have passed : ((state.popped rest).stepRaise frame).control = .raise interrupt := by
            cases frame <;> exact control
          dsimp only
          rw [passed]
          exact .passes control
  | suspended => exact .ordinary (congrArg Control.isOrdinary control)
  | halted outcome => exact .ordinary (congrArg Control.isOrdinary control)

/-- A run is halted once it has finished, or when an interrupt has left the last frame. -/
theorem halted_step
    {outcome : Outcome}
    (halts : state.step.control = .halted outcome) :
    state.control = .halted outcome ∨
      (∃ iterations, outcome = .finished iterations) ∨
        ∃ interrupt, state.control = .raise interrupt ∧ outcome = .ofInterrupt interrupt := by
  have transition := state.transition_step
  generalize state.step = next at halts transition
  cases transition with
  | rest paused => exact .inl halts
  | work plain onward | take plain top plainFrame onward | native plain effects onward =>
      have evaluates := onward.control
      rw [halts] at evaluates
      contradiction
  | unwind scopes depth raised => cases raised.symm.trans halts
  | handlerFails raised => cases raised.symm.trans halts
  | clickIgnored selecting => cases selecting.symm.trans halts
  | loopMissing | iterationsDone | finishes =>
      cases halts
      exact .inr (.inl ⟨_, rfl⟩)
  | fails raised =>
      cases halts
      exact .inr (.inr ⟨_, raised, rfl⟩)
  | _ => cases halts

/-- A failure is reported when it is raised, and from then on. -/
theorem failure_step
    {failure : Failure}
    (fails : state.step.control.failure? = some failure) :
    state.control.failure? = some failure ∨ Cause state (.raise (.failed failure)) := by
  cases reached : state.step.control with
  | raise interrupt =>
      rw [reached] at fails
      cases interrupt with
      | superseded => contradiction
      | failed raised =>
          cases fails
          have cause := state.cause_step
          rw [reached] at cause
          exact .inr cause
  | halted outcome =>
      rw [reached] at fails
      obtain same | ⟨iterations, rfl⟩ | ⟨interrupt, raised, rfl⟩ := state.halted_step reached
      · rw [same]
        exact .inl fails
      · contradiction
      · rw [raised]
        cases interrupt <;> exact .inl fails
  | _ =>
      rw [reached] at fails
      contradiction

end State

end Machine

end LedSketch
