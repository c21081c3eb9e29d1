import LedSketch.Proofs.Machine.Anchored
import LedSketch.Proofs.Script.OpenScopes

namespace LedSketch.Machine

/-!
# Scopes of a running sketch

A step declares and assigns variables, opens a scope together with the frame that closes
it, enters a function in a scope of its own, or closes a scope.  So there is one open
scope for each of these frames, and the outermost one.
-/

open Script

/-- Whether a control gives the value of a call, or raises what has stopped it. -/
def Control.isAnswer : Control → Bool
  | .value _ => true
  | .raise _ => true
  | _ => false

/-- Evaluation that opens and closes no scope. -/
structure SameScopes (state next : State) : Prop where
  stack :
    ∃ pushed,
      next.stack = pushed ++ state.stack ∧
        ∀ frame ∈ pushed, frame.closes = false
  scopes : Scopes.Writes state.scopes next.scopes
  depth : next.depth = state.depth

namespace SameScopes

variable {state next : State}

/-- What is done next has no part in the scopes. -/
theorem goto (control : Control) : SameScopes state (state.goto control) :=
  ⟨⟨[], rfl, by simp⟩, .none, rfl⟩

theorem into
    {frame : Frame}
    {control : Control}
    (other : frame.closes = false) :
    SameScopes state (state.into frame control) :=
  ⟨⟨[frame], rfl, List.forall_mem_singleton.mpr other⟩, .none, rfl⟩

/-- A frame that does not take a result is put back. -/
theorem putBack
    {frame : Frame}
    {rest : List Frame}
    {control : Control}
    (top : state.stack = frame :: rest) :
    SameScopes state ((state.popped rest).into frame control) :=
  ⟨⟨[], top.symm, by simp⟩, .none, rfl⟩

/-- A frame that closes no scope may have been put on the stack before. -/
theorem of_push
    {frame : Frame}
    (other : frame.closes = false)
    (onward : SameScopes (state.push frame) next) :
    SameScopes state next := by
  obtain ⟨⟨pushed, grown, others⟩, scopes, depth⟩ := onward
  refine ⟨⟨pushed ++ [frame], ?_, ?_⟩, scopes, depth⟩
  · simpa [State.push] using grown
  · exact List.forall_mem_append.mpr ⟨others, List.forall_mem_singleton.mpr other⟩

/-- Variables may have been declared and assigned before. -/
theorem of_writes
    {scopes : Scopes}
    (writes : Scopes.Writes state.scopes scopes)
    (onward : SameScopes (state.withScopes scopes) next) :
    SameScopes state next :=
  ⟨onward.stack, writes.trans onward.scopes, onward.depth⟩

theorem of_declare
    {name : String}
    {value : Value}
    (onward : SameScopes (state.withScopes (state.scopes.declare name value)) next) :
    SameScopes state next :=
  of_writes (.declare name value .none) onward

/-- Arrays and board have no part in the scopes. -/
theorem of_withWorld
    {world : World}
    (onward : SameScopes (state.withWorld world) next) :
    SameScopes state next :=
  ⟨onward.stack, onward.scopes, onward.depth⟩

theorem giveOperation
    (line : Nat)
    (computed : Except TypeFault Value) :
    SameScopes state (state.giveOperation line computed) := by
  cases computed <;> exact goto _

/-- To begin an expression opens no scope. -/
theorem stepEval (expr : Expr) : SameScopes state (state.stepEval expr) := by
  cases expr with
  | int | float | text | bool | undefined => exact goto _
  | array | assign | update | await | index => exact goto _
  | unary | binary | logical | conditional | cast | member => exact into rfl
  | name line name =>
      unfold State.stepEval
      dsimp only
      split <;> exact goto _
  | call line callee arguments => cases callee <;> exact into rfl

theorem stepDeclare (declarators : List Declarator) :
    SameScopes state (state.stepDeclare declarators) := by
  unfold State.stepDeclare
  split
  · exact goto _
  · split
    · exact into rfl
    · exact of_declare (goto _)

theorem stepTurn (loop : Loop) : SameScopes state (state.stepTurn loop) := by
  unfold State.stepTurn
  split <;> exact into rfl

theorem stepSteps
    (loop : Loop)
    (rest : List Expr) :
    SameScopes state (state.stepSteps loop rest) := by
  cases rest with
  | nil => exact goto _
  | cons expr rest => exact into rfl

theorem stepCases (rest : List SwitchCase) : SameScopes state (state.stepCases rest) := by
  cases rest with
  | nil => exact goto _
  | cons case rest => exact into rfl

theorem stepArrayItems
    (done : List Value)
    (rest : List Expr) :
    SameScopes state (state.stepArrayItems done rest) := by
  cases rest with
  | nil => exact of_withWorld (goto _)
  | cons item rest => exact into rfl

theorem stepArguments
    (line : Nat)
    (callee : Callee)
    (done : List Value)
    (rest : List Expr) :
    SameScopes state (state.stepArguments line callee done rest) := by
  cases rest with
  | nil => cases callee <;> exact goto _
  | cons argument rest => exact into rfl

theorem stepResolve
    (target : Expr)
    (use : PlaceUse) :
    SameScopes state (state.stepResolve target use) := by
  unfold State.stepResolve
  split
  · exact goto _
  · exact into rfl
  · exact goto _

/-- A value is stored in a scope that is open. -/
theorem storeAndGive
    (line : Nat)
    (place : Place)
    (stored given : Value) :
    SameScopes state (state.storeAndGive line place stored given) := by
  unfold State.storeAndGive State.writePlace
  rcases place with name | ⟨array, position⟩
  · dsimp only
    cases assigned : state.scopes.set? name stored with
    | none => exact goto _
    | some scopes => exact of_writes (.set .none assigned) (goto _)
  · exact of_withWorld (goto _)

theorem finishAssign
    (line : Nat)
    (op : Option BinaryOp)
    (place : Place)
    (value : Value) :
    SameScopes state (state.finishAssign line op place value) := by
  unfold State.finishAssign
  split
  · exact storeAndGive ..
  · split
    · exact goto _
    · split
      · exact goto _
      · exact storeAndGive ..

theorem stepUse
    (place : Place)
    (use : PlaceUse) :
    SameScopes state (state.stepUse place use) := by
  cases use with
  | read line =>
      unfold State.stepUse
      dsimp only
      split <;> exact goto _
  | assign line op value => exact into rfl
  | update line step fixity =>
      unfold State.stepUse State.finishUpdate
      dsimp only
      split
      · exact goto _
      · split
        · exact goto _
        · exact storeAndGive ..

/-- A native call opens no scope. -/
theorem callNative
    (builtin : Builtin)
    (arguments : List Value)
    (line : Nat) :
    SameScopes state (state.callNative builtin arguments line) := by
  unfold State.callNative
  split
  · exact of_withWorld (goto _)
  · exact of_withWorld (into rfl)
  · exact of_withWorld (goto _)

theorem stepInvoke
    (object : Value)
    (name : String)
    (arguments : List Value)
    (line : Nat) :
    SameScopes state (state.stepInvoke object name arguments line) := by
  cases object with
  | object handle =>
      unfold State.stepInvoke
      dsimp only
      split <;> exact of_withWorld (goto _)
  | _ => exact goto _

/-- Parameters are declared in the scope that is open. -/
theorem stepBind
    (parameters : List Parameter)
    (arguments : List Value)
    (body : List Stmt) :
    SameScopes state (state.stepBind parameters arguments body) := by
  unfold State.stepBind
  split
  · exact goto _
  · split
    · exact of_declare (goto _)
    · split
      · exact into rfl
      · exact of_declare (goto _)

/-- To enter a block declares its functions. -/
theorem writes_hoist
    (birth : Nat)
    (body : List Stmt)
    (scopes : Scopes) :
    Scopes.Writes scopes (hoist birth body scopes) := by
  induction body generalizing scopes with
  | nil => exact .none
  | cons stmt rest inductionHypothesis =>
      cases stmt with
      | function line name parameters body =>
          have declared :
              Scopes.Writes scopes
                (scopes.declare name
                  (.function ⟨⟨line, name, parameters, body⟩, scopes.current, birth⟩)) :=
            .declare _ _ .none
          exact declared.trans (inductionHypothesis _)
      | _ => exact inductionHypothesis scopes

/-- To take a click opens no scope. -/
theorem stepNextClick : SameScopes state state.stepNextClick := by
  unfold State.stepNextClick
  dsimp only
  split
  · exact ⟨⟨[], rfl, by simp⟩, .none, rfl⟩
  · split
    · exact ⟨⟨[], rfl, by simp⟩, .none, rfl⟩
    · split
      · exact of_withWorld (into rfl)
      · exact ⟨⟨[], rfl, by simp⟩, .none, rfl⟩

theorem stepLoopTop (main : Value) : SameScopes state (state.stepLoopTop main) := by
  unfold State.stepLoopTop
  split
  · split
    · exact goto _
    · exact into rfl
  · exact goto _

end SameScopes

/-- A state before a step, and after it has taken a frame that closes no scope. -/
inductive Taken (state : State) : State → Prop where
  | nothing : Taken state state
  | frame
      {frame : Frame}
      {rest : List Frame}
      (top : state.stack = frame :: rest)
      (other : frame.closes = false) :
      Taken state (state.popped rest)

/-- What a step does to the open scopes. -/
inductive Scoping (state : State) : State → Prop where
  | keeps
      {base next : State}
      (taken : Taken state base)
      (onward : SameScopes base next) :
      Scoping state next
  /-- A scope is opened under the innermost one. -/
  | opens
      {base next : State}
      (taken : Taken state base)
      (onward : SameScopes ((base.withScopes base.scopes.push).push .openScope) next) :
      Scoping state next
  /-- A function is entered in a scope under the one in which it was declared. -/
  | enters
      {closure : Closure}
      {arguments : List Value}
      {line : Nat}
      {next : State}
      (asked : state.control = .call (.function closure) arguments line)
      (shallow : state.depth < deepestCall)
      (isOpen : state.scopes.isOpen closure.scope = true)
      (stack : next.stack = .activation state.depth :: state.stack)
      (scopes : next.scopes = state.scopes.pushUnder closure.scope)
      (depth : next.depth = state.depth + 1) :
      Scoping state next
  /-- The innermost scope is closed. -/
  | closes
      {rest : List Frame}
      {next : State}
      (top : state.stack = .openScope :: rest)
      (stack : next.stack = rest)
      (scopes : next.scopes = state.scopes.pop)
      (depth : next.depth = state.depth) :
      Scoping state next
  /-- A function is left, and its scope is closed. -/
  | leaves
      {outerDepth : Nat}
      {rest : List Frame}
      {next : State}
      (top : state.stack = .activation outerDepth :: rest)
      (stack : next.stack = rest)
      (scopes : next.scopes = state.scopes.pop)
      (depth : next.depth = outerDepth)
      (answers : next.control.isAnswer = true) :
      Scoping state next

namespace Scoping

variable {state base next : State}

/-- A step that leaves the scopes open is one of the ways. -/
theorem stays (onward : SameScopes state next) : Scoping state next :=
  .keeps .nothing onward

/-- Blocks and loops open a scope together with the frame that closes it. -/
theorem stepExec (stmt : Stmt) : Scoping state (state.stepExec stmt) := by
  cases stmt with
  | declare | function | breaks | continues | empty | whileLoop => exact stays (.goto _)
  | expr | branch | doLoop | switch => exact stays (.into rfl)
  | block body => exact .opens .nothing (.goto _)
  | forLoop init test steps body =>
      refine .opens .nothing ?_
      cases init with
      | nothing => exact .goto _
      | declare line declarators => exact .into rfl
      | expr expr =>
          have starting : Frame.closes (.loopStart ⟨test, steps, body⟩) = false := rfl
          exact .of_push starting (.into rfl)
  | returns line value =>
      cases value with
      | none => exact stays (.goto _)
      | some expr => exact stays (.into rfl)

/-- A switch opens one scope for all its cases. -/
theorem enterCases
    (taken : Taken state base)
    (cases : List SwitchCase) :
    Scoping state (base.enterCases cases) := by
  unfold State.enterCases
  split
  · exact .keeps taken (.goto _)
  · exact .opens taken (.goto _)

/-- The scope of a switch is opened when its case is found. -/
theorem stepFindCase
    (value : Value)
    (rest cases : List SwitchCase) :
    Scoping state (state.stepFindCase value rest cases) := by
  unfold State.stepFindCase
  split
  · exact enterCases .nothing _
  · split
    · exact stays (.into rfl)
    · exact stays (.goto _)

/-- A call opens the scope of a function together with the frame that closes it. -/
theorem stepCall
    {callee : Value}
    {arguments : List Value}
    {line : Nat}
    (asked : state.control = .call callee arguments line) :
    Scoping state (state.stepCall callee arguments line) := by
  cases callee with
  | function closure =>
      unfold State.stepCall State.enterFunction
      dsimp only
      split
      · exact stays (.goto _)
      · next shallow =>
          split
          · next isOpen => exact .enters asked (Nat.lt_of_not_le shallow) isOpen rfl rfl rfl
          · exact stays (.goto _)
  | builtin builtin => exact stays (.callNative ..)
  | _ => exact stays (.goto _)

/-- A value closes the scope of the frame that is left for it. -/
theorem stepValue
    {frame : Frame}
    {rest : List Frame}
    (top : state.stack = frame :: rest)
    (value : Value) :
    Scoping state ((state.popped rest).stepValue value frame) := by
  -- Frames that take completions are put back; of the others none closes a scope.
  have taken (other : frame.closes = false) : Taken state (state.popped rest) :=
    .frame top other
  cases frame with
  | blockRest | openScope | loopStart | loopBody | caseRest | activation | topLevel =>
      exact stays (.putBack top)
  | arrayItem | conditionalTest | callTarget | methodObject | callArgument | discarded
  | loopStep | switchValue | returnedValue | logicalRight | handlerCall | setupCall
  | iterationEnd => exact .keeps (taken rfl) (.goto _)
  | unaryOperand | rightOperand | castOperand => exact .keeps (taken rfl) (.giveOperation ..)
  | leftOperand | indexedObject | dispatchBeforeLoop => exact .keeps (taken rfl) (.into rfl)
  | declaredValue | defaultValue => exact .keeps (taken rfl) (.of_declare (.goto _))
  | assignedValue => exact .keeps (taken rfl) (.finishAssign ..)
  | logicalLeft op right =>
      refine .keeps (taken rfl) ?_
      unfold State.stepValue
      dsimp only
      split
      · exact .goto _
      · exact .goto _
      · exact .into rfl
  | memberObject line name =>
      refine .keeps (taken rfl) ?_
      unfold State.stepValue
      dsimp only
      split <;> exact .goto _
  | indexPosition line object use =>
      refine .keeps (taken rfl) ?_
      unfold State.stepValue
      dsimp only
      split
      · exact .goto _
      · split <;> exact .goto _
  | branchTest whenTrue whenFalse =>
      refine .keeps (taken rfl) ?_
      unfold State.stepValue
      dsimp only
      split
      · exact .goto _
      · split <;> exact .goto _
  | loopTest loop =>
      refine .keeps (taken rfl) ?_
      unfold State.stepValue
      dsimp only
      split
      · exact .into rfl
      · exact .goto _
  | switchTest wanted rest cases =>
      unfold State.stepValue
      dsimp only
      split
      · exact enterCases (taken rfl) _
      · exact .keeps (taken rfl) (.goto _)
  | delayEnd line =>
      refine .keeps (taken rfl) ?_
      unfold State.stepValue
      dsimp only
      split <;> exact .goto _
  | loopCall main =>
      have resting : ∀ frame ∈ [Frame.iterationEnd main], frame.closes = false :=
        List.forall_mem_singleton.mpr rfl
      exact .keeps (taken rfl) ⟨⟨_, rfl, resting⟩, .none, rfl⟩

/-- A completed statement closes the scope of its frame. -/
theorem stepFlow
    {frame : Frame}
    {rest : List Frame}
    (top : state.stack = frame :: rest)
    (flow : Flow) :
    Scoping state ((state.popped rest).stepFlow flow frame) := by
  cases frame with
  | openScope => exact .closes top rfl rfl rfl
  | activation outerDepth => exact .leaves top rfl rfl rfl rfl
  | blockRest | loopStart | loopBody | caseRest | topLevel =>
      refine .keeps (.frame top rfl) ?_
      cases flow <;> exact .goto _
  | _ => exact stays (.putBack top)

/-- A raised interrupt closes the scope of the frame that it leaves. -/
theorem stepRaise
    {interrupt : Interrupt}
    {frame : Frame}
    {rest : List Frame}
    (raised : state.control = .raise interrupt)
    (top : state.stack = frame :: rest) :
    Scoping state ((state.popped rest).stepRaise frame) := by
  cases frame with
  | openScope => exact .closes top rfl rfl rfl
  | activation outerDepth =>
      exact .leaves top rfl rfl rfl (congrArg Control.isAnswer raised)
  | _ => exact .keeps (.frame top rfl) ⟨⟨[], rfl, by simp⟩, .none, rfl⟩

end Scoping

/-- Every step does one of these things to the open scopes. -/
theorem State.scoping_step (state : State) : Scoping state state.step := by
  unfold step
  cases control : state.control with
  | eval expr => exact .stays (.stepEval expr)
  | exec stmt => exact .stepExec stmt
  | enterBlock body =>
      exact .stays ⟨⟨[], rfl, by simp⟩, SameScopes.writes_hoist _ body _, rfl⟩
  | statements rest =>
      cases rest with
      | nil => exact .stays (.goto _)
      | cons stmt rest => exact .stays (.into rfl)
  | declare declarators => exact .stays (.stepDeclare declarators)
  | turn loop => exact .stays (.stepTurn loop)
  | steps loop rest => exact .stays (.stepSteps loop rest)
  | findCase value rest cases => exact .stepFindCase value rest cases
  | cases rest => exact .stays (.stepCases rest)
  | arrayItems done rest => exact .stays (.stepArrayItems done rest)
  | collectArguments line callee done rest => exact .stays (.stepArguments line callee done rest)
  | resolve target use => exact .stays (.stepResolve target use)
  | use place use => exact .stays (.stepUse place use)
  | call callee arguments line => exact .stepCall control
  | invoke object name arguments line => exact .stays (.stepInvoke object name arguments line)
  | bindParameters parameters arguments body =>
      exact .stays (.stepBind parameters arguments body)
  | dispatch =>
      dsimp only
      unfold stepDispatch
      split
      · exact .stays (.goto _)
      · exact .stays ⟨⟨[], rfl, by simp⟩, .none, rfl⟩
  | nextClick => exact .stays .stepNextClick
  | findSetup =>
      dsimp only
      unfold stepFindSetup
      split
      · exact .stays (.into rfl)
      · exact .stays (.goto _)
  | findLoop =>
      dsimp only
      unfold stepFindLoop
      split <;> exact .stays (.goto _)
  | loopTop main => exact .stays (.stepLoopTop main)
  | value value =>
      cases top : state.stack with
      | nil => exact .stays (.goto _)
      | cons frame rest => exact .stepValue top value
  | flow flow =>
      cases top : state.stack with
      | nil => exact .stays (.goto _)
      | cons frame rest => exact .stepFlow top flow
  | raise interrupt =>
      cases top : state.stack with
      | nil => exact .stays (.goto _)
      | cons frame rest => exact .stepRaise control top
  | suspended | halted => exact .stays ⟨⟨[], rfl, by simp⟩, .none, rfl⟩

/--
What holds of the open scopes with so many of them above a floor: to write variables leaves
the number as it is, and to open or to close a scope changes it by one.
-/
structure Levelled (holds : Nat → Scopes → Prop) : Prop where
  writes :
    ∀ {count : Nat} {scopes after : Scopes},
      holds count scopes → Scopes.Writes scopes after → holds count after
  opens :
    ∀ {count parent : Nat} {scopes : Scopes},
      holds count scopes →
      parent = scopes.current ∨ scopes.isOpen parent = true →
      holds (count + 1) (scopes.pushUnder parent)
  closes :
    ∀ {count : Nat} {scopes : Scopes},
      holds (count + 1) scopes → holds count scopes.pop

namespace Levelled

variable {holds : Nat → Scopes → Prop} {state base next : State}

/-- A property of the open scopes does not depend on other frames. -/
theorem taken
    (level : holds (state.stack.countP Frame.closes) state.scopes)
    (taken : Taken state base) :
    holds (base.stack.countP Frame.closes) base.scopes := by
  cases taken with
  | nothing => exact level
  | frame top other =>
      rwa [top, List.countP_cons_of_neg (by rw [other]; exact Bool.false_ne_true)] at level

theorem sameScopes
    (levelled : Levelled holds)
    (level : holds (state.stack.countP Frame.closes) state.scopes)
    (onward : SameScopes state next) :
    holds (next.stack.countP Frame.closes) next.scopes := by
  obtain ⟨⟨pushed, grown, others⟩, writes, _⟩ := onward
  have none : pushed.countP Frame.closes = 0 :=
    List.countP_eq_zero.mpr fun frame member => by simp [others frame member]
  rw [grown, List.countP_append, none, Nat.zero_add]
  exact levelled.writes level writes

/-- There is one open scope above the floor for each frame that closes one. -/
theorem scoping
    (levelled : Levelled holds)
    (level : holds (state.stack.countP Frame.closes) state.scopes)
    (scoping : Scoping state next) :
    holds (next.stack.countP Frame.closes) next.scopes := by
  cases scoping with
  | keeps taken onward => exact levelled.sameScopes (Levelled.taken level taken) onward
  | @opens base next taken onward =>
      refine levelled.sameScopes ?_ onward
      have opened := levelled.opens (Levelled.taken level taken) (.inl rfl)
      rwa [← List.countP_cons_of_pos (p := Frame.closes) (a := .openScope) rfl] at opened
  | enters asked shallow isOpen stack scopes depth =>
      rw [stack, scopes, List.countP_cons_of_pos rfl]
      exact levelled.opens level (.inr isOpen)
  | closes top stack scopes | leaves top stack scopes =>
      rw [top, List.countP_cons_of_pos rfl] at level
      rw [stack, scopes]
      exact levelled.closes level

/-- What opening, closing and writing preserve is preserved by a step. -/
theorem step
    (levelled : Levelled holds)
    (level : holds (state.stack.countP Frame.closes) state.scopes) :
    holds (state.step.stack.countP Frame.closes) state.step.scopes :=
  levelled.scoping level state.scoping_step

end Levelled

/-- Above the outermost scope there is one open scope for each frame that closes one. -/
def State.Nested (state : State) : Prop :=
  state.scopes.Nested (state.stack.countP Frame.closes)

namespace State.Nested

variable {state : State}

theorem levelled : Levelled fun count scopes => scopes.Nested count where
  writes nested := nested.writes
  opens nested _ := nested.pushUnder _
  closes nested := nested.pop

/-- As many scopes are open as there are frames to close them. -/
theorem step (nested : state.Nested) : state.step.Nested :=
  levelled.step nested

theorem begin
    (config : Config)
    (program : Program)
    (host : Host) :
    (State.begin config program host).Nested :=
  .ofBindings _

end State.Nested

end LedSketch.Machine
