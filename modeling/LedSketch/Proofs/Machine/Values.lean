import LedSketch.Proofs.Machine.Lines
import LedSketch.Proofs.Script.Occurrence
import LedSketch.Proofs.Script.OpenScopes

namespace LedSketch.Machine

/-!
# The values of a run

A step makes its values from values that the run has already, from code and by native
calls.  None of these makes a function, so new functions are only those that are declared
in the block which a step enters.
-/

open Script

/-- The value that a call is made on. -/
def Callee.value : Callee → Value
  | .function value => value
  | .method object _ => object

/-- The values that a frame keeps. -/
def Frame.values : Frame → List Value
  | .arrayItem done _ => done
  | .rightOperand _ _ left => [left]
  | .callArgument _ callee done _ => callee.value :: done
  | .indexPosition _ object _ => [object]
  | .switchTest value _ _ => [value]
  | .dispatchBeforeLoop main => [main]
  | .loopCall main => [main]
  | .iterationEnd main => [main]
  | _ => []

/-- The values that a control keeps. -/
def Control.values : Control → List Value
  | .findCase wanted _ _ => [wanted]
  | .arrayItems done _ => done
  | .collectArguments _ callee done _ => callee.value :: done
  | .call callee arguments _ => callee :: arguments
  | .invoke object _ arguments _ => object :: arguments
  | .bindParameters _ arguments _ => arguments
  | .loopTop main => [main]
  | .value result => [result]
  | .flow (.returned result) => [result]
  | _ => []

/-- The places in which a state keeps a value. -/
inductive State.Keeps (state : State) (value : Value) : Prop where
  | control
      (member : value ∈ state.control.values) :
      Keeps state value
  | frame
      {frame : Frame}
      (inStack : frame ∈ state.stack)
      (member : value ∈ frame.values) :
      Keeps state value
  | binding
      {scope : Scope}
      {name : String}
      (isOpen : scope ∈ state.scopes.stack)
      (bound : (name, value) ∈ scope.bindings) :
      Keeps state value
  | item
      {items : Array Value}
      (isArray : items ∈ state.world.heap.arrays)
      (member : value ∈ items) :
      Keeps state value
  | handler
      {button : Button}
      (isButton : button ∈ state.world.board.buttons)
      (handles : button.handler = some value) :
      Keeps state value

/-- The function that a control calls. -/
def Control.calledFunction? : Control → Option Closure
  | .call (.function closure) _ _ => some closure
  | _ => none

/-- Only a call enters a function of the script. -/
theorem Control.exists_call_of_calledFunction?
    {control : Control}
    {closure : Closure}
    (called : control.calledFunction? = some closure) :
    ∃ arguments line, control = .call (.function closure) arguments line := by
  unfold calledFunction? at called
  split at called
  · cases called
    exact ⟨_, _, rfl⟩
  · contradiction

/-- A function that is called is among the values that a state keeps. -/
theorem State.Keeps.of_calledFunction?
    {state : State}
    {closure : Closure}
    (called : state.control.calledFunction? = some closure) :
    state.Keeps (.function closure) := by
  obtain ⟨arguments, line, asked⟩ := Control.exists_call_of_calledFunction? called
  refine .control ?_
  rw [asked]
  exact List.mem_cons_self

/-- The next step makes a function of a declaration in the block that it enters. -/
structure State.Hoists (state : State) (closure : Closure) : Prop where
  declared :
    ∃ body,
      state.control = .enterBlock body ∧ closure.function.declaration ∈ body
  scope : closure.scope = state.scopes.current

/-- A state in which all values but those of its control are good. -/
structure State.Stores
    (good : Value → Prop)
    (state : State) :
    Prop where
  stack : ∀ frame ∈ state.stack, ∀ value ∈ frame.values, good value
  scopes : state.scopes.Hold good
  world : state.world.Hold good

/-- A state in which all values are good. -/
structure State.Holds
    (good : Value → Prop)
    (state : State) :
    Prop where
  stores : state.Stores good
  control : ∀ value ∈ state.control.values, good value

variable {good : Value → Prop}

/-- Each value that a state keeps is good. -/
theorem State.Holds.of_keeps
    {state : State}
    {value : Value}
    (holds : state.Holds good)
    (keeps : state.Keeps value) :
    good value := by
  cases keeps with
  | control member => exact holds.control value member
  | frame inStack member => exact holds.stores.stack _ inStack value member
  | binding isOpen bound => exact holds.stores.scopes _ isOpen _ bound
  | item isArray member => exact holds.stores.world.heap _ isArray value member
  | handler isButton handles => exact (holds.stores.world.board _ isButton value handles).1

/-- Only arrays and texts have a member, their length, and it is good. -/
theorem good_memberValue
    {heap : Heap}
    {name : String}
    {object found : Value}
    (plain : ConcernsFunctions good)
    (isMember : memberValue heap name object = some found) :
    good found := by
  unfold memberValue at isMember
  split at isMember
  · split at isMember
    · cases isMember
      exact plain.int _
    · contradiction
  · split at isMember
    · cases isMember
      exact plain.int _
    · contradiction
  · contradiction

/-- To enter a block binds the functions that are declared in it. -/
theorem hold_hoist_declared
    {body : List Stmt}
    {scopes : Scopes}
    (birth : Nat)
    (hold : scopes.Hold good)
    (declared :
      ∀ function : Function,
        function.declaration ∈ body →
        good (.function ⟨function, scopes.current, birth⟩)) :
    (hoist birth body scopes).Hold good := by
  induction body generalizing scopes with
  | nil => exact hold
  | cons stmt rest inductionHypothesis =>
      have later :
          ∀ function : Function,
            function.declaration ∈ rest →
            good (.function ⟨function, scopes.current, birth⟩) :=
        fun function member => declared function (List.mem_cons_of_mem _ member)
      cases stmt with
      | function line name parameters body =>
          have first := declared ⟨line, name, parameters, body⟩ List.mem_cons_self
          refine inductionHypothesis (hold.declare first) ?_
          rw [Scopes.current_declare]
          exact later
      | _ => exact inductionHypothesis hold later

namespace State.Stores

variable {state : State}

/-- A control with good values may be gone on with. -/
theorem goto
    {control : Control}
    (stores : state.Stores good)
    (isGood : ∀ value ∈ control.values, good value) :
    (state.goto control).Holds good :=
  ⟨⟨stores.stack, stores.scopes, stores.world⟩, isGood⟩

/-- A frame with good values may be put on the stack. -/
theorem push
    {frame : Frame}
    (stores : state.Stores good)
    (isGood : ∀ value ∈ frame.values, good value) :
    (state.push frame).Stores good :=
  ⟨List.forall_mem_cons.mpr ⟨isGood, stores.stack⟩, stores.scopes, stores.world⟩

theorem into
    {frame : Frame}
    {control : Control}
    (stores : state.Stores good)
    (goodFrame : ∀ value ∈ frame.values, good value)
    (goodControl : ∀ value ∈ control.values, good value) :
    (state.into frame control).Holds good :=
  (stores.push goodFrame).goto goodControl

/-- Scopes may be replaced by others with good values. -/
theorem withScopes
    {scopes : Scopes}
    (stores : state.Stores good)
    (hold : scopes.Hold good) :
    (state.withScopes scopes).Stores good :=
  ⟨stores.stack, hold, stores.world⟩

/-- Arrays and board may be replaced by others with good values. -/
theorem withWorld
    {world : World}
    (stores : state.Stores good)
    (hold : world.Hold good) :
    (state.withWorld world).Stores good :=
  ⟨stores.stack, stores.scopes, hold⟩

theorem nothing : ∀ value ∈ ([] : List Value), good value := by simp

theorem only
    {value : Value}
    (isGood : good value) :
    ∀ other ∈ [value], good other :=
  List.forall_mem_singleton.mpr isGood

/-- A good value may be given on. -/
theorem give
    {value : Value}
    (stores : state.Stores good)
    (isGood : good value) :
    (state.give value).Holds good :=
  stores.goto (only isGood)

theorem fault
    (stores : state.Stores good)
    (line : Nat)
    (fault : RuntimeFault) :
    (state.fault line fault).Holds good :=
  stores.goto nothing

/-- An operator gives a good value, or fails. -/
theorem giveOperation
    {computed : Except TypeFault Value}
    (stores : state.Stores good)
    (line : Nat)
    (yields : Yields good computed) :
    (state.giveOperation line computed).Holds good := by
  cases computed with
  | ok value => exact stores.give (yields value rfl)
  | error fault => exact stores.fault line _

/-- An expression begins with a number, a text, a variable or a part of it. -/
theorem stepEval
    (stores : state.Stores good)
    (plain : ConcernsFunctions good)
    (expr : Expr) :
    (state.stepEval expr).Holds good := by
  cases expr with
  | int line value => exact stores.give (plain.int value)
  | float line value => exact stores.give (plain.float value)
  | text line value => exact stores.give (plain.text value)
  | bool line value => exact stores.give (plain.bool value)
  | undefined line => exact stores.give plain.undefined
  | name line name =>
      unfold State.stepEval
      dsimp only
      split
      · next found => exact stores.give (stores.scopes.get? found)
      · exact stores.fault line _
  | array | assign | update | await | index => exact stores.goto nothing
  | unary | binary | logical | conditional | cast | member => exact stores.into nothing nothing
  | call line callee arguments => cases callee <;> exact stores.into nothing nothing

/-- The functions of a block are hoisted as good values. -/
theorem stepExec
    (stores : state.Stores good)
    (plain : ConcernsFunctions good)
    (stmt : Stmt) :
    (state.stepExec stmt).Holds good := by
  cases stmt with
  | declare | function | breaks | continues | empty | whileLoop => exact stores.goto nothing
  | expr | branch | doLoop | switch => exact stores.into nothing nothing
  | block body => exact (stores.withScopes stores.scopes.push).into nothing nothing
  | forLoop init test steps body =>
      have opened : ((state.withScopes state.scopes.push).push .openScope).Stores good :=
        (stores.withScopes stores.scopes.push).push nothing
      cases init with
      | nothing => exact opened.goto nothing
      | declare line declarators => exact opened.into nothing nothing
      | expr expr =>
          have inLoop :
              (((state.withScopes state.scopes.push).push .openScope).push
                (.loopStart ⟨test, steps, body⟩)).Stores good :=
            opened.push nothing
          exact inLoop.into nothing nothing
  | returns line value =>
      cases value with
      | none => exact stores.goto (only plain.undefined)
      | some expr => exact stores.into nothing nothing

theorem stepDeclare
    (stores : state.Stores good)
    (plain : ConcernsFunctions good)
    (declarators : List Declarator) :
    (state.stepDeclare declarators).Holds good := by
  unfold State.stepDeclare
  split
  · exact stores.goto nothing
  · split
    · exact stores.into nothing nothing
    · exact (stores.withScopes (stores.scopes.declare plain.undefined)).goto nothing

theorem stepTurn
    (stores : state.Stores good)
    (loop : Loop) :
    (state.stepTurn loop).Holds good := by
  unfold State.stepTurn
  split <;> exact stores.into nothing nothing

theorem stepSteps
    (stores : state.Stores good)
    (loop : Loop)
    (rest : List Expr) :
    (state.stepSteps loop rest).Holds good := by
  cases rest with
  | nil => exact stores.goto nothing
  | cons expr rest => exact stores.into nothing nothing

theorem enterCases
    (stores : state.Stores good)
    (cases : List SwitchCase) :
    (state.enterCases cases).Holds good := by
  unfold State.enterCases
  split
  · exact stores.goto nothing
  · exact (stores.withScopes stores.scopes.push).into nothing nothing

/-- The value that is switched on goes along unchanged. -/
theorem stepFindCase
    {value : Value}
    (stores : state.Stores good)
    (isGood : good value)
    (rest cases : List SwitchCase) :
    (state.stepFindCase value rest cases).Holds good := by
  unfold State.stepFindCase
  split
  · exact stores.enterCases _
  · split
    · exact stores.into (only isGood) nothing
    · exact stores.goto (only isGood)

theorem stepCases
    (stores : state.Stores good)
    (rest : List SwitchCase) :
    (state.stepCases rest).Holds good := by
  cases rest with
  | nil => exact stores.goto nothing
  | cons case rest => exact stores.into nothing nothing

theorem stepArrayItems
    {done : List Value}
    (stores : state.Stores good)
    (plain : ConcernsFunctions good)
    (isGood : ∀ item ∈ done, good item)
    (rest : List Expr) :
    (state.stepArrayItems done rest).Holds good := by
  cases rest with
  | nil =>
      have items : ∀ item ∈ done.reverse.toArray, good item := by simpa using isGood
      have world :
          World.Hold good
            { state.world with
              heap := (state.world.heap.allocate done.reverse.toArray).2 } :=
        ⟨stores.world.heap.allocate items, stores.world.board⟩
      exact (stores.withWorld world).give (plain.array _)
  | cons item rest => exact stores.into isGood nothing

theorem stepArguments
    {callee : Callee}
    {done : List Value}
    (stores : state.Stores good)
    (line : Nat)
    (called : good callee.value)
    (isGood : ∀ argument ∈ done, good argument)
    (rest : List Expr) :
    (state.stepArguments line callee done rest).Holds good := by
  cases rest with
  | nil =>
      have given : ∀ value ∈ callee.value :: done.reverse, good value :=
        List.forall_mem_cons.mpr ⟨called, by simpa using isGood⟩
      cases callee <;> exact stores.goto given
  | cons argument rest =>
      exact stores.into (List.forall_mem_cons.mpr ⟨called, isGood⟩) nothing

theorem stepResolve
    (stores : state.Stores good)
    (target : Expr)
    (use : PlaceUse) :
    (state.stepResolve target use).Holds good := by
  unfold State.stepResolve
  split
  · exact stores.goto nothing
  · exact stores.into nothing nothing
  · exact stores.fault _ _

theorem readPlace
    (stores : state.Stores good)
    (plain : ConcernsFunctions good)
    (place : Place) :
    Yields good (state.readPlace place) := by
  rcases place with name | ⟨id, position⟩
  · unfold State.readPlace
    dsimp only
    split
    · next found => exact .ok (stores.scopes.get? found)
    · exact .error
  · apply Yields.ok
    cases found : state.world.heap.get? id position with
    | none => exact plain.undefined
    | some value => exact stores.world.heap.get? found

theorem storeAndGive
    {stored given : Value}
    (stores : state.Stores good)
    (line : Nat)
    (place : Place)
    (goodStored : good stored)
    (goodGiven : good given) :
    (state.storeAndGive line place stored given).Holds good := by
  unfold State.storeAndGive State.writePlace
  rcases place with name | ⟨id, position⟩
  · dsimp only
    cases set : state.scopes.set? name stored with
    | none => exact stores.fault line _
    | some scopes =>
        exact (stores.withScopes (stores.scopes.set? goodStored set)).give goodGiven
  · have world :
        World.Hold good
          { state.world with heap := state.world.heap.set id position stored } :=
      ⟨stores.world.heap.set id position goodStored, stores.world.board⟩
    exact (stores.withWorld world).give goodGiven

theorem finishAssign
    {value : Value}
    (stores : state.Stores good)
    (plain : ConcernsFunctions good)
    (line : Nat)
    (op : Option BinaryOp)
    (place : Place)
    (isGood : good value) :
    (state.finishAssign line op place value).Holds good := by
  unfold State.finishAssign
  split
  · exact stores.storeAndGive line place isGood isGood
  · split
    · exact stores.fault line _
    · split
      · exact stores.fault line _
      · next computed =>
          have result := Value.yields_binary plain _ _ _ _ _ computed
          exact stores.storeAndGive line place result result

theorem finishUpdate
    (stores : state.Stores good)
    (plain : ConcernsFunctions good)
    (line : Nat)
    (step : Script.Step)
    (fixity : Fixity)
    (place : Place) :
    (state.finishUpdate line step fixity place).Holds good := by
  unfold State.finishUpdate
  split
  · exact stores.fault line _
  · next current read =>
      split
      · exact stores.fault line _
      · next updated computed =>
          have result := Value.yields_binary plain _ _ _ _ _ computed
          refine stores.storeAndGive line place result ?_
          cases fixity with
          | before => exact result
          | after => exact stores.readPlace plain place _ read

theorem stepUse
    (stores : state.Stores good)
    (plain : ConcernsFunctions good)
    (place : Place)
    (use : PlaceUse) :
    (state.stepUse place use).Holds good := by
  cases use with
  | read line =>
      unfold State.stepUse
      dsimp only
      split
      · next read => exact stores.give (stores.readPlace plain place _ read)
      · exact stores.fault line _
  | assign line op value => exact stores.into nothing nothing
  | update line step fixity => exact stores.finishUpdate plain line step fixity place

/-- A function is entered with good arguments. -/
theorem enterFunction
    {arguments : List Value}
    (stores : state.Stores good)
    (closure : Closure)
    (given : ∀ argument ∈ arguments, good argument)
    (line : Nat) :
    (state.enterFunction closure arguments line).Holds good := by
  unfold State.enterFunction
  split
  · exact stores.fault line _
  · split
    · have activated :
          (((state.withScopes (state.scopes.pushUnder closure.scope)).push
            (.activation state.depth))).Stores good :=
        (stores.withScopes (stores.scopes.pushUnder closure.scope)).push nothing
      exact ⟨⟨activated.stack, activated.scopes, activated.world⟩, given⟩
    · exact stores.fault line _

/-- A call hands good arguments on. -/
theorem stepCall
    {callee : Value}
    {arguments : List Value}
    (stores : state.Stores good)
    (plain : ConcernsFunctions good)
    (given : ∀ argument ∈ arguments, good argument)
    (line : Nat) :
    (state.stepCall callee arguments line).Holds good := by
  cases callee with
  | function closure => exact stores.enterFunction closure given line
  | builtin builtin =>
      obtain ⟨world, answer⟩ :=
        (Native.Moves.compositional plain).callBuiltin builtin arguments state.world stores.world
      unfold State.stepCall State.callNative
      dsimp only
      split
      · next value after ran =>
          rw [ran] at world answer
          exact (stores.withWorld world).give (answer _ rfl)
      · next after ran =>
          rw [ran] at world
          exact (stores.withWorld world).into nothing nothing
      · next fault after ran =>
          rw [ran] at world
          exact (stores.withWorld world).goto nothing
  | _ => exact stores.fault line _

theorem stepInvoke
    {object : Value}
    {arguments : List Value}
    (stores : state.Stores good)
    (plain : ConcernsFunctions good)
    (name : String)
    (given : ∀ argument ∈ arguments, good argument)
    (line : Nat) :
    (state.stepInvoke object name arguments line).Holds good := by
  cases object with
  | object handle =>
      obtain ⟨world, answer⟩ :=
        (Native.Moves.compositional plain).callMethod given handle name state.world
          stores.world
      unfold State.stepInvoke
      dsimp only
      split
      · next value after ran =>
          rw [ran] at world answer
          exact (stores.withWorld world).give (answer _ rfl)
      · next fault after ran =>
          rw [ran] at world
          exact (stores.withWorld world).goto nothing
  | _ => exact stores.fault line _

/-- Parameters are bound to good arguments. -/
theorem stepBind
    {arguments : List Value}
    (stores : state.Stores good)
    (plain : ConcernsFunctions good)
    (parameters : List Parameter)
    (given : ∀ argument ∈ arguments, good argument)
    (body : List Stmt) :
    (state.stepBind parameters arguments body).Holds good := by
  unfold State.stepBind
  split
  · exact stores.goto nothing
  · split
    · next argument arguments =>
        obtain ⟨first, others⟩ := List.forall_mem_cons.mp given
        exact (stores.withScopes (stores.scopes.declare first)).goto others
    · split
      · exact stores.into nothing nothing
      · exact (stores.withScopes (stores.scopes.declare plain.undefined)).goto nothing

theorem stepDispatch
    (stores : state.Stores good)
    (plain : ConcernsFunctions good) :
    state.stepDispatch.Holds good := by
  unfold State.stepDispatch
  split
  · exact stores.give plain.undefined
  · exact ⟨⟨stores.stack, stores.scopes, stores.world⟩, nothing⟩

theorem handlerOf?
    {id : Nat}
    {label : String}
    {handler : Value}
    (stores : state.Stores good)
    (found : State.handlerOf? state.world.board id = some (label, handler)) :
    good handler := by
  unfold State.handlerOf? at found
  split at found
  · next button isButton =>
      obtain ⟨set, isSet, same⟩ := Option.map_eq_some_iff.mp found
      cases same
      exact (stores.world.board button (Array.mem_of_getElem? isButton) handler isSet).1
  · contradiction

/-- The handler of a button is a good value. -/
theorem stepNextClick
    (stores : state.Stores good)
    (plain : ConcernsFunctions good)
    (selecting : state.control = .nextClick) :
    state.stepNextClick.Holds good := by
  unfold State.stepNextClick
  dsimp only
  split
  · exact ⟨⟨stores.stack, stores.scopes, stores.world⟩, only plain.undefined⟩
  · next id clicks taken =>
      split
      · refine ⟨⟨stores.stack, stores.scopes, ⟨stores.world.heap, stores.world.board⟩⟩, ?_⟩
        -- A click of no button is dropped, and the next one is selected.
        change ∀ value ∈ state.control.values, good value
        rw [selecting]
        exact nothing
      · next label handler handled =>
          have clicked :
              (state.withWorld { state.world with
                host := { state.world.host with clicks }.record
                  (.buttonClicked id label) }).Stores good :=
            ⟨stores.stack, stores.scopes, ⟨stores.world.heap, stores.world.board⟩⟩
          split
          · exact clicked.into nothing (only (stores.handlerOf? handled))
          · exact ⟨⟨clicked.stack, clicked.scopes, clicked.world⟩, nothing⟩

theorem entryPoint?
    {name : String}
    {main : Value}
    (stores : state.Stores good)
    (found : state.entryPoint? name = some main) :
    good main := by
  unfold State.entryPoint? at found
  split at found
  · next closure bound =>
      cases found
      exact stores.scopes.getFrom? bound
  · contradiction

theorem stepFindSetup (stores : state.Stores good) : state.stepFindSetup.Holds good := by
  unfold State.stepFindSetup
  split
  · next setup found => exact stores.into nothing (only (stores.entryPoint? found))
  · exact stores.goto nothing

theorem stepFindLoop (stores : state.Stores good) : state.stepFindLoop.Holds good := by
  unfold State.stepFindLoop
  split
  · next main found => exact stores.goto (only (stores.entryPoint? found))
  · exact stores.goto nothing

theorem stepLoopTop
    {main : Value}
    (stores : state.Stores good)
    (isGood : good main) :
    (state.stepLoopTop main).Holds good := by
  unfold State.stepLoopTop
  split
  · split
    · exact stores.goto nothing
    · exact stores.into (only isGood) nothing
  · exact stores.goto nothing

/-- A frame puts a good value among good ones. -/
theorem stepValue
    {value : Value}
    {frame : Frame}
    (stores : state.Stores good)
    (plain : ConcernsFunctions good)
    (kept : ∀ other ∈ frame.values, good other)
    (given : good value) :
    (state.stepValue value frame).Holds good := by
  cases frame with
  | arrayItem done rest => exact stores.goto (List.forall_mem_cons.mpr ⟨given, kept⟩)
  | unaryOperand line op =>
      exact stores.giveOperation line (Value.yields_unary plain _ _)
  | leftOperand line op right => exact stores.into (only given) nothing
  | rightOperand line op left =>
      exact stores.giveOperation line (Value.yields_binary plain _ _ _ _)
  | logicalLeft op right =>
      unfold State.stepValue
      dsimp only
      split
      · exact stores.give (plain.bool _)
      · exact stores.give (plain.bool _)
      · exact stores.into nothing nothing
  | logicalRight => exact stores.give (plain.bool _)
  | assignedValue line op place => exact stores.finishAssign plain line op place given
  | castOperand line kind =>
      exact stores.giveOperation line (Value.yields_cast plain _ _)
  | memberObject line name =>
      unfold State.stepValue
      dsimp only
      split
      · next found isMember => exact stores.give (good_memberValue plain isMember)
      · exact stores.fault line _
  | callTarget line arguments => exact stores.goto (only given)
  | methodObject line name arguments => exact stores.goto (only given)
  | callArgument line callee done rest =>
      obtain ⟨called, goodDone⟩ := List.forall_mem_cons.mp kept
      exact stores.goto
        (List.forall_mem_cons.mpr ⟨called, List.forall_mem_cons.mpr ⟨given, goodDone⟩⟩)
  | indexedObject line position use => exact stores.into (only given) nothing
  | indexPosition line object use =>
      unfold State.stepValue
      dsimp only
      split
      · exact stores.fault line _
      · split
        · exact stores.goto nothing
        · exact stores.fault line _
  | declaredValue name rest =>
      exact (stores.withScopes (stores.scopes.declare given)).goto nothing
  | branchTest whenTrue whenFalse =>
      unfold State.stepValue
      dsimp only
      split
      · exact stores.goto nothing
      · split <;> exact stores.goto nothing
  | loopTest loop =>
      unfold State.stepValue
      dsimp only
      split
      · exact stores.into nothing nothing
      · exact stores.goto nothing
  | switchTest wanted rest cases =>
      unfold State.stepValue
      dsimp only
      split
      · exact stores.enterCases rest
      · exact stores.goto kept
  | switchValue | returnedValue => exact stores.goto (only given)
  | defaultValue name rest body =>
      exact (stores.withScopes (stores.scopes.declare given)).goto nothing
  | delayEnd line =>
      unfold State.stepValue
      dsimp only
      split <;> exact stores.goto nothing
  | dispatchBeforeLoop main => exact stores.into kept kept
  | loopCall main =>
      have resting : (state.push (.iterationEnd main)).Stores good := stores.push kept
      exact ⟨⟨resting.stack, resting.scopes, resting.world⟩, nothing⟩
  | iterationEnd main => exact stores.goto kept
  | conditionalTest | discarded | loopStep | handlerCall | setupCall =>
      exact stores.goto nothing
  | blockRest | openScope | loopStart | loopBody | caseRest | activation | topLevel =>
      exact stores.into kept nothing

/-- A completed statement hands on its value. -/
theorem stepFlow
    {flow : Flow}
    {frame : Frame}
    (stores : state.Stores good)
    (plain : ConcernsFunctions good)
    (kept : ∀ other ∈ frame.values, good other)
    (completed : ∀ value ∈ (Control.flow flow).values, good value) :
    (state.stepFlow flow frame).Holds good := by
  have result : good flow.value := by
    cases flow with
    | returned value => exact completed value List.mem_cons_self
    | normal | broke | continued => exact plain.undefined
  cases frame with
  | blockRest | loopStart | caseRest => cases flow <;> exact stores.goto (by assumption)
  | openScope => exact (stores.withScopes stores.scopes.pop).goto completed
  | loopBody loop => cases flow <;> exact stores.goto (by assumption)
  | activation outerDepth =>
      have popped := stores.withScopes stores.scopes.pop
      exact ⟨⟨popped.stack, popped.scopes, popped.world⟩, only result⟩
  | topLevel => cases flow <;> exact stores.goto nothing
  | _ => exact stores.into kept (only result)

theorem stepRaise
    (stores : state.Stores good)
    (kept : ∀ value ∈ state.control.values, good value)
    (frame : Frame) :
    (state.stepRaise frame).Holds good := by
  cases frame with
  | openScope | activation => exact ⟨⟨stores.stack, stores.scopes.pop, stores.world⟩, kept⟩
  | _ => exact ⟨⟨stores.stack, stores.scopes, stores.world⟩, kept⟩

/-- The frame on top has good values, and so have those below it. -/
theorem popped
    {frame : Frame}
    {rest : List Frame}
    (stores : state.Stores good)
    (top : state.stack = frame :: rest) :
    (∀ value ∈ frame.values, good value) ∧ (state.popped rest).Stores good := by
  have stack := stores.stack
  rw [top] at stack
  obtain ⟨first, others⟩ := List.forall_mem_cons.mp stack
  exact ⟨first, others, stores.scopes, stores.world⟩

end State.Stores

namespace State.Holds

variable {state : State}

/-- What follows from two properties of values holds of all values that have both. -/
theorem combine
    {also both : Value → Prop}
    (holds : state.Holds good)
    (alsoHolds : state.Holds also)
    (implies : ∀ value, good value → also value → both value) :
    state.Holds both where
  stores.stack frame member value kept :=
    implies value (holds.stores.stack frame member value kept)
      (alsoHolds.stores.stack frame member value kept)
  stores.scopes scope isOpen entry bound :=
    implies entry.2 (holds.stores.scopes scope isOpen entry bound)
      (alsoHolds.stores.scopes scope isOpen entry bound)
  stores.world.heap items isArray item member :=
    implies item (holds.stores.world.heap items isArray item member)
      (alsoHolds.stores.world.heap items isArray item member)
  stores.world.board button isButton handler handles :=
    (holds.stores.world.board button isButton handler handles).imp_left fun isGood =>
      implies handler isGood (alsoHolds.stores.world.board button isButton handler handles).1
  control value kept :=
    implies value (holds.control value kept) (alsoHolds.control value kept)

/-- A state of values that are good is one of values that are better. -/
theorem mono
    {better : Value → Prop}
    (holds : state.Holds good)
    (implies : ∀ value, good value → better value) :
    state.Holds better :=
  holds.combine holds fun value isGood _ => implies value isGood

/-- After a step all values are good, if those functions are that the step declares. -/
theorem step_of_declared
    (holds : state.Holds good)
    (plain : ConcernsFunctions good)
    (declared :
      ∀ body,
        state.control = .enterBlock body →
        ∀ function : Function,
          function.declaration ∈ body →
          good (.function ⟨function, state.scopes.current, state.nextBirth⟩)) :
    state.step.Holds good := by
  obtain ⟨stores, kept⟩ := holds
  have nothing : ∀ value ∈ ([] : List Value), good value := Stores.nothing
  unfold State.step
  cases control : state.control <;> rw [control] at kept
  case eval expr => exact stores.stepEval plain expr
  case exec stmt => exact stores.stepExec plain stmt
  case enterBlock body =>
    have scopes : (hoist state.nextBirth body state.scopes).Hold good :=
      hold_hoist_declared _ stores.scopes (declared body control)
    exact ⟨⟨stores.stack, scopes, stores.world⟩, nothing⟩
  case statements rest =>
    cases rest with
    | nil => exact stores.goto nothing
    | cons stmt rest => exact stores.into nothing nothing
  case declare declarators => exact stores.stepDeclare plain declarators
  case turn loop => exact stores.stepTurn loop
  case steps loop rest => exact stores.stepSteps loop rest
  case findCase value rest cases =>
    exact stores.stepFindCase (kept value List.mem_cons_self) rest cases
  case cases rest => exact stores.stepCases rest
  case arrayItems done rest => exact stores.stepArrayItems plain kept rest
  case collectArguments line callee done rest =>
    obtain ⟨called, goodDone⟩ := List.forall_mem_cons.mp kept
    exact stores.stepArguments line called goodDone rest
  case resolve target use => exact stores.stepResolve target use
  case use place use => exact stores.stepUse plain place use
  case call callee arguments line =>
    exact stores.stepCall plain (List.forall_mem_cons.mp kept).2 line
  case invoke object name arguments line =>
    exact stores.stepInvoke plain name (List.forall_mem_cons.mp kept).2 line
  case bindParameters parameters arguments body =>
    exact stores.stepBind plain parameters kept body
  case dispatch => exact stores.stepDispatch plain
  case nextClick => exact stores.stepNextClick plain control
  case findSetup => exact stores.stepFindSetup
  case findLoop => exact stores.stepFindLoop
  case loopTop main => exact stores.stepLoopTop (kept main List.mem_cons_self)
  case value value =>
    cases top : state.stack with
    | nil => exact stores.goto nothing
    | cons frame rest =>
        obtain ⟨keptFrame, popped⟩ := stores.popped top
        exact popped.stepValue plain keptFrame (kept value List.mem_cons_self)
  case flow flow =>
    cases top : state.stack with
    | nil => exact stores.goto nothing
    | cons frame rest =>
        obtain ⟨keptFrame, popped⟩ := stores.popped top
        exact popped.stepFlow plain keptFrame kept
  case raise interrupt =>
    cases top : state.stack with
    | nil => exact stores.goto nothing
    | cons frame rest =>
        have raised : ∀ value ∈ (state.popped rest).control.values, good value := by
          change ∀ value ∈ state.control.values, good value
          rw [control]
          exact kept
        exact (stores.popped top).2.stepRaise raised frame
  case suspended => exact ⟨stores, by rw [control]; exact kept⟩
  case halted outcome => exact ⟨stores, by rw [control]; exact kept⟩

/-- After a step all values are good, if those functions are that the step makes. -/
theorem step
    (holds : state.Holds good)
    (plain : ConcernsFunctions good)
    (hoisted : ∀ closure, state.Hoists closure → good (.function closure)) :
    state.step.Holds good :=
  holds.step_of_declared plain fun body control function member =>
    hoisted ⟨function, state.scopes.current, state.nextBirth⟩ ⟨⟨body, control, member⟩, rfl⟩

/-- The host that polls has no part in the values. -/
theorem attach
    (holds : state.Holds good)
    (host : Host) :
    (state.attach host).Holds good :=
  ⟨⟨holds.stores.stack, holds.stores.scopes,
    ⟨holds.stores.world.heap, holds.stores.world.board⟩⟩, holds.control⟩

/-- After a pause the call of `delay` has no value. -/
theorem wake
    (holds : state.Holds good)
    (plain : ConcernsFunctions good)
    (host : Host) :
    (state.wake host).Holds good :=
  (holds.attach host).stores.give plain.undefined

/-- At the start of a program there is no function yet. -/
theorem begin
    (plain : ConcernsFunctions good)
    (native : ∀ builtin, good (.builtin builtin))
    (config : Config)
    (program : Program)
    (host : Host) :
    (State.begin config program host).Holds good := by
  have bindings : Native.bindings.Hold good := by
    intro entry member
    rcases List.mem_append.mp member with isBuiltin | isOther
    · obtain ⟨builtin, _, rfl⟩ := List.mem_map.mp isBuiltin
      exact native builtin
    · simp only [List.mem_cons, List.not_mem_nil, or_false] at isOther
      rcases isOther with rfl | rfl | rfl | rfl | rfl | rfl | rfl | rfl | rfl <;>
        exact plain _ fun _ => Value.noConfusion
  refine ⟨⟨?_, .ofBindings bindings, ⟨.empty, ?_⟩⟩, Stores.nothing⟩
  · exact List.forall_mem_singleton.mpr Stores.nothing
  · simp [Board.Hold, State.begin, Board.create]

end State.Holds

end LedSketch.Machine
