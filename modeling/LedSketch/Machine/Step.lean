import LedSketch.Machine.State
import LedSketch.Native.Builtin
import LedSketch.Native.Method

namespace LedSketch.Machine

/-!
# One step of a run

Every step is a function of the state.  Operands are evaluated from left to
right, a target before the value that is assigned to it, and nothing catches an
interrupt: it only closes scopes and calls on its way out.
-/

open Script

/-- The deepest nesting of script functions. -/
def deepestCall : Nat := 100

/-- The value of a member: arrays and texts have a length. -/
def memberValue
    (heap : Heap)
    (name : String) :
    Value → Option Value
  | .array id =>
      if name = "length" then some (.int (Int64.ofNat (heap.length id))) else none
  | .text text =>
      if name = "length" then some (.int (Int64.ofNat text.utf8ByteSize)) else none
  | _ => none

/-- The element of an array at a position, or the fault. -/
def elementPlace
    (heap : Heap)
    (object : Value)
    (position : Int64) :
    Except RuntimeFault Place :=
  match object with
  | .array id =>
      if 0 ≤ position.toInt ∧ position.toInt < heap.length id then
        .ok (.element id position.toInt.toNat)
      else
        .error (.positionOutOfRange position.toInt (heap.length id))
  | other => .error (.notIndexable other.typeName)

/-- The operator that steps a variable. -/
def stepOperator : Step → BinaryOp
  | .increment => .add
  | .decrement => .sub

/-- The functions that a block declares, bound in the innermost scope. -/
def hoist
    (birth : Nat) :
    List Stmt → Scopes → Scopes
  | [], scopes => scopes
  | .function line name parameters body :: rest, scopes =>
      let closure : Closure := ⟨⟨line, name, parameters, body⟩, scopes.current, birth⟩
      hoist birth rest (scopes.declare name (.function closure))
  | _ :: rest, scopes => hoist birth rest scopes

/-- The cases from the default case on; none if there is no default case. -/
def fromDefault : List SwitchCase → List SwitchCase
  | [] => []
  | case :: rest => if case.test.isNone then case :: rest else fromDefault rest

namespace State

/-- Start to evaluate an expression. -/
def stepEval
    (state : State)
    (expr : Expr) :
    State :=
  match expr with
  | .int _ value => state.give (.int value)
  | .float _ value => state.give (.float value)
  | .text _ value => state.give (.text value)
  | .bool _ value => state.give (.bool value)
  | .undefined _ => state.give .undefined
  | .name line name =>
      match state.scopes.get? name with
      | some value => state.give value
      | none => state.fault line (.undefinedName name)
  | .array _ items => state.goto (.arrayItems [] items)
  | .unary line op operand => state.into (.unaryOperand line op) (.eval operand)
  | .binary line op left right =>
      state.into (.leftOperand line op right) (.eval left)
  | .logical _ op left right => state.into (.logicalLeft op right) (.eval left)
  | .conditional _ test whenTrue whenFalse =>
      state.into (.conditionalTest whenTrue whenFalse) (.eval test)
  | .assign line op target value =>
      state.goto (.resolve target (.assign line op value))
  | .update line step fixity target =>
      state.goto (.resolve target (.update line step fixity))
  | .cast line kind operand => state.into (.castOperand line kind) (.eval operand)
  | .await _ operand => state.goto (.eval operand)
  | .call line callee arguments =>
      match callee with
      | .member _ object name =>
          state.into (.methodObject line name arguments) (.eval object)
      | callee => state.into (.callTarget line arguments) (.eval callee)
  | .member line object name => state.into (.memberObject line name) (.eval object)
  | .index line object position =>
      state.goto (.resolve (.index line object position) (.read line))

/-- Start to execute a statement. -/
def stepExec
    (state : State)
    (stmt : Stmt) :
    State :=
  match stmt with
  | .declare _ declarators => state.goto (.declare declarators)
  | .function .. => state.complete .normal
  | .expr expr => state.into .discarded (.eval expr)
  | .block body =>
      (state.withScopes state.scopes.push).into .openScope (.enterBlock body)
  | .branch test whenTrue whenFalse =>
      state.into (.branchTest whenTrue whenFalse) (.eval test)
  | .whileLoop test body => state.goto (.turn ⟨some test, [], body⟩)
  | .doLoop body test => state.into (.loopBody ⟨some test, [], body⟩) (.exec body)
  | .forLoop init test steps body =>
      let opened := (state.withScopes state.scopes.push).push .openScope
      let loop : Loop := ⟨test, steps, body⟩
      match init with
      | .nothing => opened.goto (.turn loop)
      | .declare _ declarators => opened.into (.loopStart loop) (.declare declarators)
      | .expr expr => (opened.push (.loopStart loop)).into .discarded (.eval expr)
  | .switch discriminant cases => state.into (.switchValue cases) (.eval discriminant)
  | .returns _ value =>
      match value with
      | some expr => state.into .returnedValue (.eval expr)
      | none => state.complete (.returned .undefined)
  | .breaks _ => state.complete .broke
  | .continues _ => state.complete .continued
  | .empty => state.complete .normal

/-- Declare the remaining variables of a declaration. -/
def stepDeclare
    (state : State)
    (declarators : List Declarator) :
    State :=
  match declarators with
  | [] => state.complete .normal
  | declarator :: rest =>
      match declarator.init with
      | some init => state.into (.declaredValue declarator.name rest) (.eval init)
      | none =>
          (state.withScopes (state.scopes.declare declarator.name .undefined)).goto
            (.declare rest)

/-- Begin a turn of a loop. -/
def stepTurn
    (state : State)
    (loop : Loop) :
    State :=
  match loop.test with
  | some test => state.into (.loopTest loop) (.eval test)
  | none => state.into (.loopBody loop) (.exec loop.body)

/-- Evaluate the remaining steps after a turn of a loop. -/
def stepSteps
    (state : State)
    (loop : Loop)
    (rest : List Expr) :
    State :=
  match rest with
  | [] => state.goto (.turn loop)
  | expr :: rest => state.into (.loopStep loop rest) (.eval expr)

/-- Enter the cases of a `switch` from the selected one on. -/
def enterCases
    (state : State)
    (cases : List SwitchCase) :
    State :=
  match cases with
  | [] => state.complete .normal
  | cases => (state.withScopes state.scopes.push).into .openScope (.cases cases)

/-- Look for the case that a value selects. -/
def stepFindCase
    (state : State)
    (value : Value)
    (rest cases : List SwitchCase) :
    State :=
  match rest with
  | [] => state.enterCases (fromDefault cases)
  | case :: others =>
      match case.test with
      | some test => state.into (.switchTest value rest cases) (.eval test)
      | none => state.goto (.findCase value others cases)

/-- Run the remaining cases of a `switch`. -/
def stepCases
    (state : State)
    (rest : List SwitchCase) :
    State :=
  match rest with
  | [] => state.complete .normal
  | case :: rest => state.into (.caseRest rest) (.enterBlock case.body)

/-- Evaluate the remaining items of an array. -/
def stepArrayItems
    (state : State)
    (done : List Value)
    (rest : List Expr) :
    State :=
  match rest with
  | [] =>
      let (id, heap) := state.world.heap.allocate done.reverse.toArray
      (state.withWorld { state.world with heap }).give (.array id)
  | item :: rest => state.into (.arrayItem done rest) (.eval item)

/-- Evaluate the remaining arguments of a call, then make it. -/
def stepArguments
    (state : State)
    (line : Nat)
    (callee : Callee)
    (done : List Value)
    (rest : List Expr) :
    State :=
  match rest with
  | [] =>
      match callee with
      | .function value => state.goto (.call value done.reverse line)
      | .method object name => state.goto (.invoke object name done.reverse line)
  | argument :: rest => state.into (.callArgument line callee done rest) (.eval argument)

/-- Resolve a target, evaluating its parts once. -/
def stepResolve
    (state : State)
    (target : Expr)
    (use : PlaceUse) :
    State :=
  match target with
  | .name _ name => state.goto (.use (.variable name) use)
  | .index line object position =>
      state.into (.indexedObject line position use) (.eval object)
  | other => state.fault other.line .invalidTarget

/-- Read a place and go on with its value, or fail on a line. -/
def readPlace
    (state : State)
    (place : Place) :
    Except RuntimeFault Value :=
  match place with
  | .variable name =>
      match state.scopes.get? name with
      | some value => .ok value
      | none => .error (.undefinedName name)
  | .element id position =>
      .ok ((state.world.heap.get? id position).getD .undefined)

/-- Store a value in a place. -/
def writePlace
    (state : State)
    (place : Place)
    (value : Value) :
    Except RuntimeFault State :=
  match place with
  | .variable name =>
      match state.scopes.set? name value with
      | some scopes => .ok (state.withScopes scopes)
      | none => .error (.undeclaredTarget name)
  | .element id position =>
      .ok (state.withWorld
        { state.world with heap := state.world.heap.set id position value })

/-- Store a value in a place and go on with a value. -/
def storeAndGive
    (state : State)
    (line : Nat)
    (place : Place)
    (stored given : Value) :
    State :=
  match state.writePlace place stored with
  | .ok written => written.give given
  | .error fault => state.fault line fault

/-- Store the assigned value, combined with the current one if an operator asks for it. -/
def finishAssign
    (state : State)
    (line : Nat)
    (op : Option BinaryOp)
    (place : Place)
    (value : Value) :
    State :=
  match op with
  | none => state.storeAndGive line place value value
  | some op =>
      match state.readPlace place with
      | .error fault => state.fault line fault
      | .ok current =>
          match Value.binary state.world.heap op current value with
          | .error fault => state.fault line (.type fault)
          | .ok result => state.storeAndGive line place result result

/-- Step the value of a place. -/
def finishUpdate
    (state : State)
    (line : Nat)
    (step : Step)
    (fixity : Fixity)
    (place : Place) :
    State :=
  match state.readPlace place with
  | .error fault => state.fault line fault
  | .ok current =>
      match Value.binary state.world.heap (stepOperator step) current (.int 1) with
      | .error fault => state.fault line (.type fault)
      | .ok updated =>
          state.storeAndGive line place updated
            (match fixity with
              | .before => updated
              | .after => current)

/-- Use a resolved place. -/
def stepUse
    (state : State)
    (place : Place)
    (use : PlaceUse) :
    State :=
  match use with
  | .read line =>
      match state.readPlace place with
      | .ok value => state.give value
      | .error fault => state.fault line fault
  | .assign line op value => state.into (.assignedValue line op place) (.eval value)
  | .update line step fixity => state.finishUpdate line step fixity place

/-- Enter a script function: one call deeper, in a scope under that of its declaration. -/
def enterFunction
    (state : State)
    (closure : Closure)
    (arguments : List Value)
    (line : Nat) :
    State :=
  if deepestCall ≤ state.depth then
    state.fault line .callsExhausted
  else if state.scopes.isOpen closure.scope then
    let entered := state.withScopes (state.scopes.pushUnder closure.scope)
    { entered.into (.activation state.depth)
        (.bindParameters closure.function.parameters arguments closure.function.body) with
      depth := state.depth + 1 }
  else
    state.fault line (.outlivedScope closure.function.name)

/-- Call a native function; a delay suspends the run. -/
def callNative
    (state : State)
    (builtin : Builtin)
    (arguments : List Value)
    (line : Nat) :
    State :=
  match Native.runIn state.world (Native.callBuiltin builtin arguments) with
  | (.ok (.value value), world) => (state.withWorld world).give value
  | (.ok .suspend, world) => (state.withWorld world).into (.delayEnd line) .suspended
  | (.error fault, world) => (state.withWorld world).stop (.ofCall line fault)

/-- Call a value. -/
def stepCall
    (state : State)
    (callee : Value)
    (arguments : List Value)
    (line : Nat) :
    State :=
  match callee with
  | .function closure => state.enterFunction closure arguments line
  | .builtin builtin => state.callNative builtin arguments line
  | other => state.fault line (.notCallable other.typeName)

/-- Call a method. -/
def stepInvoke
    (state : State)
    (object : Value)
    (name : String)
    (arguments : List Value)
    (line : Nat) :
    State :=
  match object with
  | .object handle =>
      match Native.runIn state.world (Native.callMethod handle name arguments) with
      | (.ok value, world) => (state.withWorld world).give value
      | (.error fault, world) => (state.withWorld world).stop (.ofCall line fault)
  | other => state.fault line (.noMethod other.typeName name)

/-- Bind the remaining parameters, then run the body of the function. -/
def stepBind
    (state : State)
    (parameters : List Parameter)
    (arguments : List Value)
    (body : List Stmt) :
    State :=
  match parameters with
  | [] => state.goto (.enterBlock body)
  | parameter :: rest =>
      match arguments with
      | argument :: arguments =>
          (state.withScopes (state.scopes.declare parameter.name argument)).goto
            (.bindParameters rest arguments body)
      | [] =>
          match parameter.default with
          | some default =>
              state.into (.defaultValue parameter.name rest body) (.eval default)
          | none =>
              (state.withScopes (state.scopes.declare parameter.name .undefined)).goto
                (.bindParameters rest [] body)

/-- Begin to handle clicks, unless a handler is already at work. -/
def stepDispatch (state : State) : State :=
  if state.dispatching then
    state.give .undefined
  else
    { state with control := .nextClick, dispatching := true }

/-- The line that the call of a handler is made on. -/
def handlerLine : Value → Nat
  | .function closure => closure.function.line
  | _ => 0

/-- The label and the handler of a button that has one. -/
def handlerOf?
    (board : Board)
    (id : Nat) :
    Option (String × Value) :=
  match board.buttons[id]? with
  | some button => button.handler.map fun handler => (button.label, handler)
  | none => none

/-- Take the oldest click and call its handler; without clicks the handling ends. -/
def stepNextClick (state : State) : State :=
  let host := state.world.host
  match host.clicks.take? with
  | none => { state with control := .value .undefined, dispatching := false }
  | some (id, clicks) =>
      let taken := { host with clicks }
      match handlerOf? state.world.board id with
      | none =>
          state.withWorld { state.world with host := taken.record (.clickIgnored id) }
      | some (label, handler) =>
          let clicked :=
            state.withWorld
              { state.world with host := taken.record (.buttonClicked id label) }
          if state.live then
            clicked.into .handlerCall (.call handler [] (handlerLine handler))
          else
            { clicked.stop .superseded with dispatching := false }

/-- A global name that is bound to a script function. -/
def entryPoint?
    (state : State)
    (name : String) :
    Option Value :=
  match state.scopes.getFrom? Scopes.globalId name with
  | some (.function closure) => some (.function closure)
  | _ => none

/-- End the run. -/
def finish (state : State) : State :=
  state.goto (.halted (.finished state.iterations))

/-- Call `setup`, if there is one. -/
def stepFindSetup (state : State) : State :=
  match state.entryPoint? "setup" with
  | some setup => state.into .setupCall (.call setup [] 0)
  | none => state.goto .findLoop

/-- Go on to the first iteration, if there is a `loop`. -/
def stepFindLoop (state : State) : State :=
  match state.entryPoint? "loop" with
  | some main => state.goto (.loopTop main)
  | none => state.finish

/-- Whether the run has made as many iterations as it may. -/
def limitReached (state : State) : Bool :=
  match state.limit with
  | some limit => limit ≤ state.iterations
  | none => false

/-- Begin an iteration, unless the run is superseded or has made all of them. -/
def stepLoopTop
    (state : State)
    (main : Value) :
    State :=
  if state.live then
    if state.limitReached then
      state.finish
    else
      state.into (.dispatchBeforeLoop main) .dispatch
  else
    state.stop .superseded

/-- Give a value to the frame on top of the stack. -/
def stepValue
    (state : State)
    (value : Value)
    (frame : Frame) :
    State :=
  match frame with
  | .arrayItem done rest => state.goto (.arrayItems (value :: done) rest)
  | .unaryOperand line op => state.giveOperation line (Value.unary op value)
  | .leftOperand line op right => state.into (.rightOperand line op value) (.eval right)
  | .rightOperand line op left =>
      state.giveOperation line (Value.binary state.world.heap op left value)
  | .logicalLeft op right =>
      match op, value.truthy with
      | .and, false => state.give (.bool false)
      | .or, true => state.give (.bool true)
      | _, _ => state.into .logicalRight (.eval right)
  | .logicalRight => state.give (.bool value.truthy)
  | .conditionalTest whenTrue whenFalse =>
      state.goto (.eval (if value.truthy then whenTrue else whenFalse))
  | .assignedValue line op place => state.finishAssign line op place value
  | .castOperand line kind => state.giveOperation line (Value.cast kind value)
  | .memberObject line name =>
      match memberValue state.world.heap name value with
      | some found => state.give found
      | none => state.fault line (.unreadable name value.typeName)
  | .callTarget line arguments =>
      state.goto (.collectArguments line (.function value) [] arguments)
  | .methodObject line name arguments =>
      state.goto (.collectArguments line (.method value name) [] arguments)
  | .callArgument line callee done rest =>
      state.goto (.collectArguments line callee (value :: done) rest)
  | .indexedObject line position use =>
      state.into (.indexPosition line value use) (.eval position)
  | .indexPosition line object use =>
      match value.toInt64 with
      | .error fault => state.fault line (.type fault)
      | .ok position =>
          match elementPlace state.world.heap object position with
          | .ok place => state.goto (.use place use)
          | .error fault => state.fault line fault
  | .declaredValue name rest =>
      (state.withScopes (state.scopes.declare name value)).goto (.declare rest)
  | .discarded => state.complete .normal
  | .branchTest whenTrue whenFalse =>
      if value.truthy then
        state.goto (.exec whenTrue)
      else
        match whenFalse with
        | some stmt => state.goto (.exec stmt)
        | none => state.complete .normal
  | .loopTest loop =>
      if value.truthy then
        state.into (.loopBody loop) (.exec loop.body)
      else
        state.complete .normal
  | .loopStep loop rest => state.goto (.steps loop rest)
  | .switchValue cases => state.goto (.findCase value cases cases)
  | .switchTest wanted rest cases =>
      if Value.equal value wanted then
        state.enterCases rest
      else
        state.goto (.findCase wanted (rest.drop 1) cases)
  | .returnedValue => state.complete (.returned value)
  | .defaultValue name rest body =>
      (state.withScopes (state.scopes.declare name value)).goto
        (.bindParameters rest [] body)
  | .handlerCall => state.goto .nextClick
  | .delayEnd _ =>
      if state.live then
        state.goto .dispatch
      else
        state.stop .superseded
  | .setupCall => state.goto .findLoop
  | .dispatchBeforeLoop main => state.into (.loopCall main) (.call main [] 0)
  | .loopCall main =>
      { state.into (.iterationEnd main) .suspended with
        iterations := state.iterations + 1 }
  | .iterationEnd main => state.goto (.loopTop main)
  | frame => state.into frame (.flow .normal)

/-- Tell the frame on top of the stack how a statement completed. -/
def stepFlow
    (state : State)
    (flow : Flow)
    (frame : Frame) :
    State :=
  match frame with
  | .blockRest rest =>
      match flow with
      | .normal => state.goto (.statements rest)
      | flow => state.complete flow
  | .openScope => (state.withScopes state.scopes.pop).complete flow
  | .loopStart loop =>
      match flow with
      | .normal => state.goto (.turn loop)
      | flow => state.complete flow
  | .loopBody loop =>
      match flow with
      | .broke => state.complete .normal
      | .returned value => state.complete (.returned value)
      | _ => state.goto (.steps loop loop.steps)
  | .caseRest rest =>
      match flow with
      | .normal => state.goto (.cases rest)
      | .broke => state.complete .normal
      | flow => state.complete flow
  | .activation outerDepth =>
      { (state.withScopes state.scopes.pop).give flow.value with depth := outerDepth }
  | .topLevel =>
      match flow with
      | .normal => state.goto .findSetup
      | .returned _ => state.fault 0 .strayReturn
      | _ => state.fault 0 .strayBreak
  | frame => state.into frame (.value flow.value)

/-- Let an interrupt pass the frame on top of the stack. -/
def stepRaise
    (state : State)
    (frame : Frame) :
    State :=
  match frame with
  | .openScope => state.withScopes state.scopes.pop
  | .activation outerDepth =>
      { state.withScopes state.scopes.pop with depth := outerDepth }
  | .handlerCall => { state with dispatching := false }
  | _ => state

/-- The state without the frame on top of its stack. -/
def popped
    (state : State)
    (rest : List Frame) :
    State :=
  { state with stack := rest }

/-- One step of a run; a paused run stays as it is. -/
def step (state : State) : State :=
  match state.control with
  | .eval expr => state.stepEval expr
  | .exec stmt => state.stepExec stmt
  | .enterBlock body =>
      { state with
        control := .statements body
        scopes := hoist state.nextBirth body state.scopes
        nextBirth := state.nextBirth + 1 }
  | .statements [] => state.complete .normal
  | .statements (stmt :: rest) => state.into (.blockRest rest) (.exec stmt)
  | .declare declarators => state.stepDeclare declarators
  | .turn loop => state.stepTurn loop
  | .steps loop rest => state.stepSteps loop rest
  | .findCase value rest cases => state.stepFindCase value rest cases
  | .cases rest => state.stepCases rest
  | .arrayItems done rest => state.stepArrayItems done rest
  | .collectArguments line callee done rest => state.stepArguments line callee done rest
  | .resolve target use => state.stepResolve target use
  | .use place use => state.stepUse place use
  | .call callee arguments line => state.stepCall callee arguments line
  | .invoke object name arguments line => state.stepInvoke object name arguments line
  | .bindParameters parameters arguments body => state.stepBind parameters arguments body
  | .dispatch => state.stepDispatch
  | .nextClick => state.stepNextClick
  | .findSetup => state.stepFindSetup
  | .findLoop => state.stepFindLoop
  | .loopTop main => state.stepLoopTop main
  | .value value =>
      match state.stack with
      | [] => state.finish
      | frame :: rest => (state.popped rest).stepValue value frame
  | .flow flow =>
      match state.stack with
      | [] => state.finish
      | frame :: rest => (state.popped rest).stepFlow flow frame
  | .raise interrupt =>
      match state.stack with
      | [] => state.goto (.halted (.ofInterrupt interrupt))
      | frame :: rest => (state.popped rest).stepRaise frame
  | .suspended => state
  | .halted _ => state

section Results

variable {state : State} {frame : Frame} {rest : List Frame}

/-- A value goes to the frame on top of the stack. -/
theorem step_of_value
    {value : Value}
    (given : state.control = .value value)
    (top : state.stack = frame :: rest) :
    state.step = (state.popped rest).stepValue value frame := by
  rw [step, given]
  dsimp only
  rw [top]

/-- A completion goes to the frame on top of the stack. -/
theorem step_of_flow
    {flow : Flow}
    (completed : state.control = .flow flow)
    (top : state.stack = frame :: rest) :
    state.step = (state.popped rest).stepFlow flow frame := by
  rw [step, completed]
  dsimp only
  rw [top]

/-- An interrupt passes the frame on top of the stack. -/
theorem step_of_raise
    {interrupt : Interrupt}
    (raised : state.control = .raise interrupt)
    (top : state.stack = frame :: rest) :
    state.step = (state.popped rest).stepRaise frame := by
  rw [step, raised]
  dsimp only
  rw [top]

end Results

end State

end LedSketch.Machine
