import LedSketch.Proofs.Machine.Floor
import LedSketch.Proofs.Machine.Lines
import LedSketch.Proofs.Machine.Trace
import LedSketch.Proofs.Script.Exits

namespace LedSketch.Machine

/-!
# How statements complete

A statement completes with a jump or with a return only if it can be left that way.  What
carries this through a run is how the code can be left that the run still has to do, for
the control and for the frames that its result comes to; no step adds to it.
-/

open Script

/-- The way in which a statement was left that has completed. -/
def Flow.exit? : Flow → Option Exit
  | .normal => none
  | .returned _ => some .returned
  | .broke => some .broke
  | .continued => some .continued

section Definitions

variable (exit : Exit)

/-- The code of a control can be left in a way. -/
def Control.Leaves : Control → Prop
  | .exec stmt => stmt.Leaves exit
  | .enterBlock body => Stmt.BodyLeaves exit body
  | .statements rest => Stmt.BodyLeaves exit rest
  | .turn loop => exit = .returned ∧ loop.body.Leaves exit
  | .steps loop _ => exit = .returned ∧ loop.body.Leaves exit
  | .findCase _ rest all => Stmt.CasesLeave exit rest ∨ Stmt.CasesLeave exit all
  | .cases rest => Stmt.CasesLeave exit rest
  | .bindParameters _ _ body => Stmt.BodyLeaves exit body
  | .flow ending => ending.exit? = some exit
  | _ => False

/-- The code that waits in a frame can be left in a way. -/
def Frame.Leaves : Frame → Prop
  | .branchTest whenTrue whenFalse =>
      whenTrue.Leaves exit ∨ ∃ stmt ∈ whenFalse, stmt.Leaves exit
  | .loopTest loop => exit = .returned ∧ loop.body.Leaves exit
  | .loopStep loop _ => exit = .returned ∧ loop.body.Leaves exit
  | .switchValue cases => Stmt.CasesLeave exit cases
  | .switchTest _ rest all => Stmt.CasesLeave exit rest ∨ Stmt.CasesLeave exit all
  | .returnedValue => exit = .returned
  | .defaultValue _ _ body => Stmt.BodyLeaves exit body
  | .blockRest rest => Stmt.BodyLeaves exit rest
  | .loopStart loop => exit = .returned ∧ loop.body.Leaves exit
  | .loopBody loop => exit = .returned ∧ loop.body.Leaves exit
  | .caseRest rest => Stmt.CasesLeave exit rest
  | _ => False

/-- What is completed above a frame in a way completes the frame in the same way. -/
def Frame.HandsOn : Frame → Prop
  | .blockRest _ => True
  | .openScope => True
  | .loopStart _ => True
  | .loopBody _ => exit = .returned
  | .caseRest _ => exit ≠ .broke
  | _ => False

/-- Code above some frames, or code that waits in them, can be left in a way that passes them. -/
def LeavesBelow (above : Prop) : List Frame → Prop
  | [] => above
  | frame :: rest => LeavesBelow (above ∧ frame.HandsOn exit ∨ frame.Leaves exit) rest

/-- All the code that a run still has to do can be left in a way. -/
def State.Leaves (state : State) : Prop :=
  LeavesBelow exit (state.control.Leaves exit) state.stack

/-- The next state can be left in a way only if the frames of this one can, below such code. -/
def State.LeavesAs
    (above : Prop)
    (state next : State) :
    Prop :=
  next.Leaves exit → LeavesBelow exit above state.stack

end Definitions

variable {exit : Exit} {above : Prop} {state next : State}

/-- What hands an exit on does so for every reason that leaves above it. -/
theorem LeavesBelow.mono
    {other : Prop}
    {frames : List Frame}
    (implies : above → other)
    (leaves : LeavesBelow exit above frames) :
    LeavesBelow exit other frames := by
  induction frames generalizing above other with
  | nil => exact implies leaves
  | cons frame rest inductionHypothesis =>
      exact inductionHypothesis (Or.imp_left (And.imp_left implies)) leaves

namespace State.LeavesAs

/-- A control may be gone on with that leaves only as it may. -/
theorem goto
    {control : Control}
    (leaves : control.Leaves exit → above) :
    LeavesAs exit above state (state.goto control) :=
  LeavesBelow.mono leaves

/-- A frame may have been put on the stack that hands the exit on or leaves itself. -/
theorem pushed
    {frame : Frame}
    {inside : Prop}
    (onward : LeavesAs exit inside (state.push frame) next)
    (leaves : inside ∧ frame.HandsOn exit ∨ frame.Leaves exit → above) :
    LeavesAs exit above state next :=
  fun leavesNext => LeavesBelow.mono leaves (onward leavesNext)

/-- A frame may have been put on the stack whose code leaves as it may. -/
theorem pushedCode
    {frame : Frame}
    (onward : LeavesAs exit above (state.push frame) next)
    (leaves : frame.Leaves exit → above) :
    LeavesAs exit above state next := by
  refine pushed onward ?_
  rintro (⟨leavesNext, _⟩ | leavesFrame)
  · exact leavesNext
  · exact leaves leavesFrame

/-- The scopes have no part in exits. -/
theorem of_withScopes
    {scopes : Scopes}
    (onward : LeavesAs exit above (state.withScopes scopes) next) :
    LeavesAs exit above state next :=
  onward

/-- A control and a frame may be gone on with that leave only as they may. -/
theorem into
    {frame : Frame}
    {control : Control}
    (leaves : control.Leaves exit ∧ frame.HandsOn exit ∨ frame.Leaves exit → above) :
    LeavesAs exit above state (state.into frame control) :=
  pushed (goto id) leaves

/-- Of work that has no exit itself, only the frame counts that takes its result. -/
theorem intoWork
    {frame : Frame}
    {control : Control}
    (work : ¬ control.Leaves exit)
    (leaves : frame.Leaves exit → above) :
    LeavesAs exit above state (state.into frame control) := by
  refine into ?_
  rintro (⟨leavesWork, _⟩ | leavesFrame)
  · exact (work leavesWork).elim
  · exact leaves leavesFrame

/-- Of code in a frame that has none itself, only the code counts. -/
theorem intoCode
    {frame : Frame}
    {control : Control}
    (leaves : control.Leaves exit → frame.HandsOn exit → above)
    (noCode : ¬ frame.Leaves exit) :
    LeavesAs exit above state (state.into frame control) := by
  refine into ?_
  rintro (⟨leavesCode, handsOn⟩ | leavesFrame)
  · exact leaves leavesCode handsOn
  · exact (noCode leavesFrame).elim

/-- The body of a loop is left only with a return, as a whole loop is. -/
theorem intoBody (loop : Loop) :
    LeavesAs exit (exit = .returned ∧ loop.body.Leaves exit) state
      (state.into (.loopBody loop) (.exec loop.body)) := by
  refine into ?_
  rintro (⟨leavesBody, isReturned⟩ | leavesLoop)
  · exact ⟨isReturned, leavesBody⟩
  · exact leavesLoop

/-- The result of an operator leaves nothing. -/
theorem giveOperation
    (line : Nat)
    (computed : Except TypeFault Value) :
    LeavesAs exit above state (state.giveOperation line computed) := by
  cases computed <;> exact goto False.elim

/-- An expression leaves nothing. -/
theorem stepEval (expr : Expr) : LeavesAs exit above state (state.stepEval expr) := by
  cases expr with
  | int | float | text | bool | undefined => exact goto nofun
  | array | assign | update | await | index => exact goto nofun
  | unary | binary | logical | conditional | cast | member => exact intoWork nofun nofun
  | name line name =>
      unfold State.stepEval
      dsimp only
      split <;> exact goto nofun
  | call line callee arguments => cases callee <;> exact intoWork nofun nofun

/-- A statement leaves as one of its parts does. -/
theorem stepExec (stmt : Stmt) :
    LeavesAs exit (stmt.Leaves exit) state (state.stepExec stmt) := by
  cases stmt with
  | declare | function | empty => exact goto nofun
  | breaks | continues => exact goto fun made => Stmt.leaves_of_exit? made
  | expr expr => exact intoWork nofun nofun
  | block body =>
      exact intoCode (fun leavesBody _ => Stmt.BodyLeaves.block leavesBody) nofun
  | branch test whenTrue whenFalse =>
      refine intoWork nofun ?_
      rintro (leaves | ⟨stmt, rfl, leaves⟩)
      · exact leaves.plainPart (.whenTrue (Stmt.stands_self _))
      · exact leaves.plainPart (.whenFalse (Stmt.stands_self _))
  | whileLoop test body =>
      exact goto fun leaves => Stmt.leaves_of_loop leaves (.whileLoop (Stmt.stands_self _))
  | doLoop body test =>
      intro leavesNext
      refine LeavesBelow.mono (fun leaves => ?_) (intoBody ⟨some test, [], body⟩ leavesNext)
      exact Stmt.leaves_of_loop leaves (.doLoop (Stmt.stands_self _))
  | forLoop init test steps body =>
      have whole (leaves : exit = .returned ∧ body.Leaves exit) :
          (Stmt.forLoop init test steps body).Leaves exit :=
        Stmt.leaves_of_loop leaves (.forLoop (Stmt.stands_self _))
      have opened
          {next : State}
          (onward :
            LeavesAs exit (exit = .returned ∧ body.Leaves exit)
              ((state.withScopes state.scopes.push).push .openScope) next) :
          LeavesAs exit ((Stmt.forLoop init test steps body).Leaves exit) state next := by
        refine of_withScopes (pushed onward ?_)
        rintro (⟨leavesLoop, _⟩ | leavesScope)
        · exact whole leavesLoop
        · exact False.elim leavesScope
      cases init with
      | nothing => exact opened (goto id)
      | declare line declarators => exact opened (intoWork nofun id)
      | expr expr => exact opened (pushedCode (intoWork nofun nofun) id)
  | switch discriminant cases =>
      exact intoWork nofun fun leave => leave.switch discriminant
  | returns line value =>
      cases value with
      | none => exact goto fun made => Stmt.leaves_of_exit? made
      | some expr =>
          refine intoWork nofun ?_
          rintro rfl
          exact Stmt.leaves_of_exit? rfl

/-- A list of statements leaves as its first or as the rest. -/
theorem stepStatements
    (stmt : Stmt)
    (rest : List Stmt) :
    LeavesAs exit (Stmt.BodyLeaves exit (stmt :: rest)) state
      (state.into (.blockRest rest) (.exec stmt)) := by
  refine into ?_
  rintro (⟨leaves, _⟩ | ⟨other, member, leaves⟩)
  · exact ⟨stmt, List.mem_cons_self, leaves⟩
  · exact ⟨other, List.mem_cons_of_mem stmt member, leaves⟩

theorem stepDeclare (declarators : List Declarator) :
    LeavesAs exit above state (state.stepDeclare declarators) := by
  unfold State.stepDeclare
  split
  · exact goto nofun
  · split
    · exact intoWork nofun nofun
    · exact of_withScopes (goto nofun)

/-- A loop is left by its body only with a return. -/
theorem stepTurn (loop : Loop) :
    LeavesAs exit (exit = .returned ∧ loop.body.Leaves exit) state (state.stepTurn loop) := by
  unfold State.stepTurn
  split
  · exact intoWork nofun id
  · exact intoBody loop

theorem stepSteps
    (loop : Loop)
    (rest : List Expr) :
    LeavesAs exit (exit = .returned ∧ loop.body.Leaves exit) state
      (state.stepSteps loop rest) := by
  cases rest with
  | nil => exact goto id
  | cons expr rest => exact intoWork nofun id

/-- A switch leaves as its cases do. -/
theorem enterCases (cases : List SwitchCase) :
    LeavesAs exit (Stmt.CasesLeave exit cases) state (state.enterCases cases) := by
  unfold State.enterCases
  split
  · exact goto nofun
  · exact of_withScopes (intoCode (fun leaves _ => leaves) nofun)

/-- The case that is found is one of the switch. -/
theorem stepFindCase
    (value : Value)
    (rest all : List SwitchCase) :
    LeavesAs exit (Stmt.CasesLeave exit rest ∨ Stmt.CasesLeave exit all) state
      (state.stepFindCase value rest all) := by
  cases rest with
  | nil =>
      intro leaves
      refine LeavesBelow.mono (fun leave => .inr ?_) (enterCases _ leaves)
      exact leave.mono (fromDefault_suffix all).subset
  | cons case others =>
      unfold State.stepFindCase
      dsimp only
      split
      · exact intoWork nofun id
      · exact goto (Or.imp_left fun leave => leave.mono (List.subset_cons_self case others))

theorem stepCases (rest : List SwitchCase) :
    LeavesAs exit (Stmt.CasesLeave exit rest) state (state.stepCases rest) := by
  cases rest with
  | nil => exact goto nofun
  | cons case others =>
      refine into ?_
      rintro (⟨leaves, stays⟩ | leave)
      · exact ⟨stays, case, List.mem_cons_self, leaves⟩
      · exact leave.mono (List.subset_cons_self case others)

theorem stepArrayItems
    (done : List Value)
    (rest : List Expr) :
    LeavesAs exit above state (state.stepArrayItems done rest) := by
  cases rest with
  | nil => exact goto nofun
  | cons item rest => exact intoWork nofun nofun

theorem stepArguments
    (line : Nat)
    (callee : Callee)
    (done : List Value)
    (rest : List Expr) :
    LeavesAs exit above state (state.stepArguments line callee done rest) := by
  cases rest with
  | nil => cases callee <;> exact goto nofun
  | cons argument rest => exact intoWork nofun nofun

theorem stepResolve
    (target : Expr)
    (use : PlaceUse) :
    LeavesAs exit above state (state.stepResolve target use) := by
  unfold State.stepResolve
  split
  · exact goto nofun
  · exact intoWork nofun nofun
  · exact goto nofun

/-- To store a value leaves nothing. -/
theorem storeAndGive
    (line : Nat)
    (place : Place)
    (stored given : Value) :
    LeavesAs exit above state (state.storeAndGive line place stored given) := by
  unfold State.storeAndGive State.writePlace
  rcases place with name | ⟨array, position⟩
  · dsimp only
    cases state.scopes.set? name stored with
    | none => exact goto nofun
    | some scopes => exact of_withScopes (goto nofun)
  · exact goto nofun

theorem finishAssign
    (line : Nat)
    (op : Option BinaryOp)
    (place : Place)
    (value : Value) :
    LeavesAs exit above state (state.finishAssign line op place value) := by
  unfold State.finishAssign
  split
  · exact storeAndGive _ _ _ _
  · split
    · exact goto nofun
    · split
      · exact goto nofun
      · exact storeAndGive _ _ _ _

theorem stepUse
    (place : Place)
    (use : PlaceUse) :
    LeavesAs exit above state (state.stepUse place use) := by
  cases use with
  | assign line op value => exact intoWork nofun nofun
  | read line =>
      unfold State.stepUse
      dsimp only
      split <;> exact goto nofun
  | update line step fixity =>
      unfold State.stepUse State.finishUpdate
      dsimp only
      split
      · exact goto nofun
      · split
        · exact goto nofun
        · exact storeAndGive _ _ _ _

/-- A function keeps the exits of its body to itself. -/
theorem enterFunction
    (closure : Closure)
    (arguments : List Value)
    (line : Nat) :
    LeavesAs exit above state (state.enterFunction closure arguments line) := by
  unfold State.enterFunction
  split
  · exact goto nofun
  · split
    · exact of_withScopes (intoCode (fun _ handsOn => False.elim handsOn) nofun)
    · exact goto nofun

/-- A call is no exit of what is around it. -/
theorem stepCall
    (callee : Value)
    (arguments : List Value)
    (line : Nat) :
    LeavesAs exit above state (state.stepCall callee arguments line) := by
  cases callee with
  | function closure => exact enterFunction _ _ _
  | builtin builtin =>
      unfold State.stepCall State.callNative
      dsimp only
      split
      · exact goto nofun
      · exact intoWork nofun nofun
      · exact goto nofun
  | _ => exact goto nofun

/-- A method call leaves nothing. -/
theorem stepInvoke
    (object : Value)
    (name : String)
    (arguments : List Value)
    (line : Nat) :
    LeavesAs exit above state (state.stepInvoke object name arguments line) := by
  cases object with
  | object handle =>
      unfold State.stepInvoke
      dsimp only
      split <;> exact goto nofun
  | _ => exact goto nofun

/-- A function leaves as its body does. -/
theorem stepBind
    (parameters : List Parameter)
    (arguments : List Value)
    (body : List Stmt) :
    LeavesAs exit (Stmt.BodyLeaves exit body) state
      (state.stepBind parameters arguments body) := by
  unfold State.stepBind
  split
  · exact goto id
  · split
    · exact of_withScopes (goto id)
    · split
      · exact intoWork nofun id
      · exact of_withScopes (goto id)

theorem stepDispatch : LeavesAs exit above state state.stepDispatch := by
  unfold State.stepDispatch
  split <;> exact goto nofun

/-- To take a click leaves nothing. -/
theorem stepNextClick (selecting : state.control = .nextClick) :
    LeavesAs exit above state state.stepNextClick := by
  unfold State.stepNextClick
  dsimp only
  split
  · exact goto nofun
  · split
    · refine LeavesBelow.mono ?_
      change state.control.Leaves exit → above
      rw [selecting]
      exact nofun
    · split
      · exact intoWork nofun nofun
      · exact goto nofun

theorem stepFindSetup : LeavesAs exit above state state.stepFindSetup := by
  unfold State.stepFindSetup
  split
  · exact intoWork nofun nofun
  · exact goto nofun

theorem stepFindLoop : LeavesAs exit above state state.stepFindLoop := by
  unfold State.stepFindLoop
  split <;> exact goto nofun

/-- The call of `loop` leaves nothing. -/
theorem stepLoopTop (main : Value) :
    LeavesAs exit above state (state.stepLoopTop main) := by
  unfold State.stepLoopTop
  split
  · split
    · exact goto nofun
    · exact intoWork nofun nofun
  · exact goto nofun

/-- A frame that goes on with a value leaves as it may. -/
theorem stepValue
    (value : Value)
    (frame : Frame) :
    LeavesAs exit (frame.Leaves exit) state (state.stepValue value frame) := by
  cases frame with
  | unaryOperand | rightOperand | castOperand => exact giveOperation _ _
  | assignedValue => exact finishAssign _ _ _ _
  | leftOperand | indexedObject | dispatchBeforeLoop | loopCall => exact intoWork nofun nofun
  | logicalLeft op right =>
      unfold State.stepValue
      dsimp only
      split
      · exact goto nofun
      · exact goto nofun
      · exact intoWork nofun nofun
  | memberObject line name =>
      unfold State.stepValue
      dsimp only
      split <;> exact goto nofun
  | indexPosition line object use =>
      unfold State.stepValue
      dsimp only
      split
      · exact goto nofun
      · split <;> exact goto nofun
  | declaredValue name rest => exact of_withScopes (goto nofun)
  | branchTest whenTrue whenFalse =>
      unfold State.stepValue
      dsimp only
      split
      · exact goto .inl
      · split
        · exact goto fun leaves => .inr ⟨_, rfl, leaves⟩
        · exact goto nofun
  | loopTest loop =>
      unfold State.stepValue
      dsimp only
      split
      · exact intoBody loop
      · exact goto nofun
  | loopStep loop rest => exact goto id
  | switchValue cases =>
      refine goto ?_
      rintro (leaves | leaves)
      · exact leaves
      · exact leaves
  | switchTest wanted rest all =>
      unfold State.stepValue
      dsimp only
      split
      · exact fun leaves => LeavesBelow.mono .inl (enterCases rest leaves)
      · exact goto (Or.imp_left fun leave => leave.mono (List.drop_subset 1 rest))
  | returnedValue => exact goto fun made => (Option.some.inj made).symm
  | defaultValue name rest body => exact of_withScopes (goto id)
  | delayEnd line =>
      unfold State.stepValue
      dsimp only
      split <;> exact goto nofun
  | blockRest | openScope | loopStart | loopBody | caseRest | activation | topLevel =>
      exact intoWork nofun id
  | _ => exact goto nofun

/-- A frame hands an exit on, or leaves itself. -/
theorem stepFlow
    (ending : Flow)
    (frame : Frame) :
    LeavesAs exit (ending.exit? = some exit ∧ frame.HandsOn exit ∨ frame.Leaves exit) state
      (state.stepFlow ending frame) := by
  cases frame with
  | blockRest rest | loopStart loop =>
      cases ending with
      | normal => exact goto .inr
      | returned | broke | continued => exact goto fun made => .inl ⟨made, trivial⟩
  | openScope => exact of_withScopes (goto fun made => .inl ⟨made, trivial⟩)
  | loopBody loop =>
      cases ending with
      | normal | continued => exact goto .inr
      | broke => exact goto nofun
      | returned value => exact goto fun made => .inl ⟨made, (Option.some.inj made).symm⟩
  | caseRest rest =>
      cases ending with
      | normal => exact goto .inr
      | broke => exact goto nofun
      | returned | continued =>
          refine goto fun made => .inl ⟨made, ?_⟩
          rintro rfl
          cases made
  | activation depth => exact goto nofun
  | topLevel => cases ending <;> exact goto nofun
  | _ => exact intoWork nofun .inr

/-- An interrupt is no exit. -/
theorem stepRaise
    (raises : ¬ state.control.Leaves exit)
    (frame : Frame) :
    LeavesAs exit above state (state.stepRaise frame) := by
  have noCode : state.control.Leaves exit → above := fun leaves => (raises leaves).elim
  cases frame <;> exact LeavesBelow.mono noCode

/-- A frame that takes a result is no longer waiting. -/
theorem take
    {frame : Frame}
    {rest : List Frame}
    (top : state.stack = frame :: rest)
    (onward :
      LeavesAs exit (above ∧ frame.HandsOn exit ∨ frame.Leaves exit) (state.popped rest) next) :
    LeavesAs exit above state next := by
  intro leaves
  rw [top]
  exact onward leaves

end State.LeavesAs

/-- A step does not add to the ways in which the code still to do can be left. -/
theorem State.leaves_of_step (leaves : state.step.Leaves exit) : state.Leaves exit := by
  suffices LeavesAs exit (state.control.Leaves exit) state state.step from this leaves
  unfold step
  cases control : state.control with
  | eval expr => exact .stepEval expr
  | exec stmt => exact .stepExec stmt
  | enterBlock body => exact LeavesBelow.mono id
  | statements rest =>
      cases rest with
      | nil => exact .goto nofun
      | cons stmt rest => exact .stepStatements stmt rest
  | declare declarators => exact .stepDeclare declarators
  | turn loop => exact .stepTurn loop
  | steps loop rest => exact .stepSteps loop rest
  | findCase value rest all => exact .stepFindCase value rest all
  | cases rest => exact .stepCases rest
  | arrayItems done rest => exact .stepArrayItems done rest
  | collectArguments line callee done rest => exact .stepArguments line callee done rest
  | resolve target use => exact .stepResolve target use
  | use place use => exact .stepUse place use
  | call callee arguments line => exact .stepCall callee arguments line
  | invoke object name arguments line => exact .stepInvoke object name arguments line
  | bindParameters parameters arguments body => exact .stepBind parameters arguments body
  | dispatch => exact .stepDispatch
  | nextClick => exact .stepNextClick control
  | findSetup => exact .stepFindSetup
  | findLoop => exact .stepFindLoop
  | loopTop main => exact .stepLoopTop main
  | value value =>
      dsimp only
      split
      · exact .goto nofun
      · next frame rest top =>
          exact .take top fun leaves => (LeavesAs.stepValue value frame leaves).mono .inr
  | flow ending =>
      dsimp only
      split
      · exact .goto nofun
      · next frame rest top => exact .take top (.stepFlow ending frame)
  | raise interrupt =>
      dsimp only
      split
      · exact .goto nofun
      · next frame rest top =>
          refine .take top (.stepRaise ?_ frame)
          change ¬ state.control.Leaves exit
          rw [control]
          exact nofun
  | suspended | halted => exact fun leaves => control ▸ leaves

section Completion

variable {allowed : Prop} {initial final start last : State} {floor : List Frame}
variable {past : List State} {stmt : Stmt} {ending : Flow}

/-- What a state does above the frames of a floor can be left only if that is allowed. -/
def State.Contained
    (exit : Exit)
    (allowed : Prop)
    (floor : List Frame)
    (state : State) :
    Prop :=
  ∃ inner,
    state.stack = inner ++ floor ∧
      (LeavesBelow exit (state.control.Leaves exit) inner → allowed)

/-- Until the frames of the floor are given a result, a step is one of the work above them. -/
theorem State.Contained.step
    (contained : state.Contained exit allowed floor)
    (working : state.stack = floor → state.control.isResult = false) :
    state.step.Contained exit allowed floor := by
  obtain ⟨inner, whole, leaves⟩ := contained
  let alone : State := { state with stack := inner }
  have same : alone.onFloor floor = state := by
    rw [State.onFloor, ← whole]
  have busy : alone.stack ≠ [] ∨ alone.control.isResult = false := by
    by_cases empty : inner = []
    · rw [empty, List.nil_append] at whole
      exact .inr (working whole)
    · exact .inl empty
  have stepped := State.step_onFloor floor alone busy
  rw [same] at stepped
  rw [stepped]
  exact ⟨alone.step.stack, rfl, fun leavesNext => leaves (State.leaves_of_step leavesNext)⟩

/-- What is above a floor does not leave in a way that is not allowed, as long as it works. -/
theorem Trace.contained
    (trace : Trace initial past final)
    (contained : initial.Contained exit allowed floor)
    (working : ∀ state ∈ past, state.stack = floor → state.control.isResult = false) :
    final.Contained exit allowed floor := by
  induction trace with
  | nil state => exact contained
  | step onward inductionHypothesis =>
      obtain ⟨here, later⟩ := List.forall_mem_cons.mp working
      exact inductionHypothesis (contained.step here) later
  | wake host resting onward inductionHypothesis =>
      obtain ⟨inner, whole, leaves⟩ := contained
      rw [resting] at leaves
      exact inductionHypothesis ⟨inner, whole, leaves⟩ working

/--
The execution of a statement that begins in one state is completed in another: there the
frames that wait for it are given its flow, and no result before.
-/
structure State.Completes
    (start : State)
    (stmt : Stmt)
    (ending : Flow)
    (last : State) :
    Prop where
  executes : start.control = .exec stmt
  completed : last.control = .flow ending
  sameFrames : last.stack = start.stack
  trace :
    ∃ past,
      Trace start past last ∧
        ∀ state ∈ past, state.stack = start.stack → state.control.isResult = false

/-- A statement is left only in a way in which its code can be left. -/
theorem State.Completes.leaves
    (completes : start.Completes stmt ending last)
    (left : ending.exit? = some exit) :
    stmt.Leaves exit := by
  obtain ⟨executes, completed, sameFrames, past, trace, working⟩ := completes
  have contained : start.Contained exit (stmt.Leaves exit) start.stack :=
    ⟨[], rfl, by rw [executes]; exact id⟩
  obtain ⟨inner, whole, leaves⟩ := trace.contained contained working
  cases List.self_eq_append_left.mp (sameFrames.symm.trans whole)
  rw [completed] at leaves
  exact leaves left

/--
A statement that completes with a break contains a `break` that no loop and no switch
inside it encloses; one that completes with a continue contains a `continue` that no loop
inside it encloses; and one that completes with a return contains a `return` of its own.
-/
theorem flow_contained (completes : start.Completes stmt ending last) :
    (ending = .broke →
      ∃ around line,
        Stands [stmt] around (.breaks line) ∧
          around.inLoop = false ∧ around.inSwitch = false) ∧
      (ending = .continued →
        ∃ around line, Stands [stmt] around (.continues line) ∧ around.inLoop = false) ∧
      ∀ value,
        ending = .returned value →
        ∃ around line result, Stands [stmt] around (.returns line result) := by
  refine ⟨?_, ?_, ?_⟩
  · rintro rfl
    obtain ⟨around, part, standing, isSource, untaken⟩ := completes.leaves rfl
    obtain ⟨noLoop, noSwitch⟩ := Bool.or_eq_false_iff.mp untaken
    cases part with
    | breaks line => exact ⟨around, line, standing, noLoop, noSwitch⟩
    | _ => cases isSource
  · rintro rfl
    obtain ⟨around, part, standing, isSource, untaken⟩ := completes.leaves rfl
    cases part with
    | continues line => exact ⟨around, line, standing, untaken⟩
    | _ => cases isSource
  · rintro value rfl
    obtain ⟨around, part, standing, isSource, untaken⟩ := completes.leaves rfl
    cases part with
    | returns line result => exact ⟨around, line, result, standing⟩
    | _ => cases isSource

/-- A return from a case of a `switch` in an endless loop. -/
theorem flow_contained_of_endless_loop :
    ∃ (start last : State) (stmt : Stmt) (value : Value),
      stmt =
          .forLoop .nothing none []
            (.switch (.int 1 7) [.mk (some (.int 1 7)) [.returns 1 (some (.int 1 7))]]) ∧
        start.Completes stmt (.returned value) last ∧
          ∃ around line result, Stands [stmt] around (.returns line result) := by
  let stmt : Stmt :=
    .forLoop .nothing none []
      (.switch (.int 1 7) [.mk (some (.int 1 7)) [.returns 1 (some (.int 1 7))]])
  let begun := State.begin ⟨1, none, .grb, 1000⟩ ⟨[stmt]⟩ ⟨true, .empty, #[], #[]⟩
  let start : State := { begun with control := .exec stmt, stack := [.blockRest [], .topLevel] }
  have working :
      ((State.visited 19 start).all fun state =>
          state.stack.length != 2 || !state.control.isResult) = true := by
    decide +kernel
  have completed : (start.advance 19).control = .flow (.returned (.int 7)) := by rfl
  have frames : (start.advance 19).stack = [.blockRest [], .topLevel] := by rfl
  have completes : start.Completes stmt (.returned (.int 7)) (start.advance 19) := by
    refine ⟨rfl, completed, frames, _, .of_advance start 19, ?_⟩
    intro state member sameFrames
    have holds := List.all_eq_true.mp working state member
    rw [sameFrames] at holds
    exact (Bool.not_eq_true' _).mp holds
  exact ⟨start, _, stmt, _, rfl, completes, (flow_contained completes).2.2 _ rfl⟩

end Completion

end LedSketch.Machine
