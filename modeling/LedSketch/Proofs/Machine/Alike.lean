import LedSketch.Proofs.Machine.Seats
import LedSketch.Proofs.Script.AlikeScopes
import LedSketch.Proofs.Script.Rearranged

namespace LedSketch.Machine

/-!
# Alike states

States that differ at most in the order in which the names of their scopes were bound.
They make the same steps.
-/

open Script

/-- A state that differs from another at most in the order of the bindings of its scopes. -/
def State.Alike (state other : State) : Prop :=
  ∃ scopes, state.scopes.Alike scopes ∧ other = state.withScopes scopes

/-- Declare a function in the innermost scope. -/
def declareFunction
    (birth : Nat)
    (scopes : Scopes)
    (function : Function) :
    Scopes :=
  scopes.declare function.name (.function ⟨function, scopes.current, birth⟩)

/-- To enter a block declares the functions of the block one after the other. -/
theorem hoist_eq_foldl
    (birth : Nat)
    (body : List Stmt)
    (scopes : Scopes) :
    hoist birth body scopes = (Stmt.functions body).foldl (declareFunction birth) scopes := by
  induction body generalizing scopes with
  | nil => rfl
  | cons stmt rest inductionHypothesis =>
      cases stmt with
      | function line name parameters body =>
          exact inductionHypothesis
            (declareFunction birth scopes ⟨line, name, parameters, body⟩)
      | _ => exact inductionHypothesis scopes

/-- A function is declared in scopes that stay alike, since both have the same innermost one. -/
theorem alike_declareFunction
    (birth : Nat)
    (function : Function)
    {scopes other : Scopes}
    (alike : scopes.Alike other) :
    (declareFunction birth scopes function).Alike (declareFunction birth other function) := by
  unfold declareFunction
  rw [alike.current]
  exact alike.declare _ _

/-- Functions declared one after the other leave scopes alike. -/
theorem alike_foldl_declareFunction
    (birth : Nat)
    (functions : List Function)
    {scopes other : Scopes}
    (alike : scopes.Alike other) :
    (functions.foldl (declareFunction birth) scopes).Alike
      (functions.foldl (declareFunction birth) other) := by
  induction functions generalizing scopes other with
  | nil => exact alike
  | cons function rest inductionHypothesis =>
      exact inductionHypothesis (alike_declareFunction birth function alike)

/-- To enter the same block leaves scopes alike. -/
theorem alike_hoist
    (birth : Nat)
    (body : List Stmt)
    {scopes other : Scopes}
    (alike : scopes.Alike other) :
    (hoist birth body scopes).Alike (hoist birth body other) := by
  rw [hoist_eq_foldl, hoist_eq_foldl]
  exact alike_foldl_declareFunction birth (Stmt.functions body) alike

/-- Functions with different names can be declared in any order. -/
theorem alike_foldl_declareFunction_of_perm
    (birth : Nat)
    {functions others : List Function}
    (moved : functions.Perm others)
    (distinct : (functions.map Function.name).Nodup)
    (scopes : Scopes) :
    (functions.foldl (declareFunction birth) scopes).Alike
      (others.foldl (declareFunction birth) scopes) := by
  induction moved generalizing scopes with
  | nil => exact .refl scopes
  | cons function moved inductionHypothesis =>
      exact inductionHypothesis (List.nodup_cons.mp distinct).2 _
  | swap first second rest =>
      have different : second.name ≠ first.name := by
        intro same
        refine (List.nodup_cons.mp distinct).1 ?_
        rw [same]
        exact List.mem_cons_self
      refine alike_foldl_declareFunction birth rest ?_
      unfold declareFunction
      rw [Scopes.current_declare, Scopes.current_declare]
      exact .declare_swap different _ _ scopes
  | trans first second firstHypothesis secondHypothesis =>
      have stillDistinct := (first.map Function.name).nodup_iff.mp distinct
      exact (firstHypothesis distinct scopes).trans (secondHypothesis stillDistinct scopes)

/--
To enter the bodies of rearranged programs leaves scopes alike: they declare the same
functions.
-/
theorem alike_hoist_of_rearranged
    {program other : Program}
    (rearranged : program.Rearranged other)
    (birth : Nat)
    {scopes otherScopes : Scopes}
    (alike : scopes.Alike otherScopes) :
    (hoist birth program.body scopes).Alike (hoist birth other.body otherScopes) := by
  refine Scopes.Alike.trans ?_ (alike_hoist birth other.body alike)
  rw [hoist_eq_foldl, hoist_eq_foldl]
  exact alike_foldl_declareFunction_of_perm birth rearranged.functions rearranged.distinct scopes

namespace State.Alike

theorem refl (state : State) : state.Alike state := ⟨state.scopes, .refl _, rfl⟩

section Steps

variable {state other : State} (alike : state.Alike other)

include alike

/-- States that are alike do the same next. -/
theorem control : other.control = state.control := by
  obtain ⟨scopes, same, rfl⟩ := alike
  rfl

/-- The same frames wait in states that are alike. -/
theorem stack : other.stack = state.stack := by
  obtain ⟨scopes, same, rfl⟩ := alike
  rfl

/-- States that are alike share the same world. -/
theorem world : other.world = state.world := by
  obtain ⟨scopes, same, rfl⟩ := alike
  rfl

theorem wake (host : Host) : (state.wake host).Alike (other.wake host) := by
  obtain ⟨scopes, same, rfl⟩ := alike
  exact ⟨scopes, same, rfl⟩

theorem attach (host : Host) : (state.attach host).Alike (other.attach host) := by
  obtain ⟨scopes, same, rfl⟩ := alike
  exact ⟨scopes, same, rfl⟩

theorem popped (rest : List Frame) : (state.popped rest).Alike (other.popped rest) := by
  obtain ⟨scopes, same, rfl⟩ := alike
  exact ⟨scopes, same, rfl⟩

theorem goto (control : Control) : (state.goto control).Alike (other.goto control) := by
  obtain ⟨scopes, same, rfl⟩ := alike
  exact ⟨scopes, same, rfl⟩

theorem into
    (frame : Frame)
    (control : Control) :
    (state.into frame control).Alike (other.into frame control) := by
  obtain ⟨scopes, same, rfl⟩ := alike
  exact ⟨scopes, same, rfl⟩

theorem giveOperation
    (line : Nat)
    (computed : Except TypeFault Value) :
    (state.giveOperation line computed).Alike (other.giveOperation line computed) := by
  cases computed <;> exact alike.goto _

/-- A name declared in both states is found in both. -/
theorem declare
    (name : String)
    (value : Value) :
    (state.withScopes (state.scopes.declare name value)).Alike
      (other.withScopes (other.scopes.declare name value)) := by
  obtain ⟨scopes, same, rfl⟩ := alike
  exact ⟨_, same.declare name value, rfl⟩

/-- A block opens a scope of the same number in both states. -/
theorem openScope :
    (state.withScopes state.scopes.push).Alike (other.withScopes other.scopes.push) := by
  obtain ⟨scopes, same, rfl⟩ := alike
  exact ⟨_, same.push, rfl⟩

/-- A block closes the same scope in both states. -/
theorem closeScope :
    (state.withScopes state.scopes.pop).Alike (other.withScopes other.scopes.pop) := by
  obtain ⟨scopes, same, rfl⟩ := alike
  exact ⟨_, same.pop, rfl⟩

/-- A name has the same value in both states, so expressions are evaluated alike. -/
theorem stepEval (expr : Expr) : (state.stepEval expr).Alike (other.stepEval expr) := by
  cases expr with
  | name line name =>
      have found : other.scopes.get? name = state.scopes.get? name := by
        obtain ⟨scopes, same, rfl⟩ := alike
        exact (same.get? name).symm
      unfold State.stepEval
      dsimp only
      rw [found]
      split <;> exact alike.goto _
  | unary | binary | logical | conditional | cast | member => exact alike.into _ _
  | call line callee arguments => cases callee <;> exact alike.into _ _
  | _ => exact alike.goto _

/-- Statements are executed alike: what they do first depends on no order of names. -/
theorem stepExec (stmt : Stmt) : (state.stepExec stmt).Alike (other.stepExec stmt) := by
  cases stmt with
  | expr | branch | doLoop | switch => exact alike.into _ _
  | block body => exact alike.openScope.into _ _
  | forLoop init test steps body =>
      obtain ⟨scopes, same, rfl⟩ := alike
      cases init <;> exact ⟨_, same.push, rfl⟩
  | returns line value =>
      cases value with
      | none => exact alike.goto _
      | some expr => exact alike.into _ _
  | _ => exact alike.goto _

/-- Declarations bind the same names to the same values. -/
theorem stepDeclare (declarators : List Declarator) :
    (state.stepDeclare declarators).Alike (other.stepDeclare declarators) := by
  rcases declarators with _ | ⟨⟨name, _ | init⟩, rest⟩
  · exact alike.goto _
  · exact (alike.declare name .undefined).goto _
  · exact alike.into _ _

theorem enterCases (cases : List SwitchCase) :
    (state.enterCases cases).Alike (other.enterCases cases) := by
  cases cases with
  | nil => exact alike.goto _
  | cons case rest => exact alike.openScope.into _ _

/-- A switch tests its cases in their order, alike in both states. -/
theorem stepFindCase
    (value : Value)
    (rest all : List SwitchCase) :
    (state.stepFindCase value rest all).Alike (other.stepFindCase value rest all) := by
  cases rest with
  | nil => exact alike.enterCases _
  | cons case others =>
      unfold State.stepFindCase
      dsimp only
      split
      · exact alike.into _ _
      · exact alike.goto _

/-- Arguments are collected alike, and the same call follows them. -/
theorem stepArguments
    (line : Nat)
    (callee : Callee)
    (done : List Value)
    (rest : List Expr) :
    (state.stepArguments line callee done rest).Alike
      (other.stepArguments line callee done rest) := by
  cases rest with
  | nil => cases callee <;> exact alike.goto _
  | cons argument rest => exact alike.into _ _

/-- The same place is assigned in both states. -/
theorem stepResolve
    (target : Expr)
    (wanted : PlaceUse) :
    (state.stepResolve target wanted).Alike (other.stepResolve target wanted) := by
  cases target with
  | index => exact alike.into _ _
  | _ => exact alike.goto _

/-- The same is read from a place in both states. -/
theorem readPlace (place : Place) : other.readPlace place = state.readPlace place := by
  obtain ⟨scopes, same, rfl⟩ := alike
  rcases place with name | ⟨id, position⟩
  · unfold State.readPlace
    dsimp only
    rw [same.get? name]
    rfl
  · rfl

/-- A name that can be assigned in one state can be in the other one, and both stay alike. -/
theorem storeAndGive
    (line : Nat)
    (place : Place)
    (stored given : Value) :
    (state.storeAndGive line place stored given).Alike
      (other.storeAndGive line place stored given) := by
  obtain ⟨scopes, same, rfl⟩ := alike
  rcases place with name | ⟨id, position⟩
  · have assigned := same.set? name stored
    have sameScopes : (state.withScopes scopes).scopes = scopes := rfl
    unfold State.storeAndGive State.writePlace
    dsimp only
    rw [sameScopes]
    generalize state.scopes.set? name stored = result at assigned ⊢
    generalize scopes.set? name stored = otherResult at assigned ⊢
    cases assigned with
    | some alike => exact ⟨_, alike, rfl⟩
    | none => exact ⟨scopes, same, rfl⟩
  · exact ⟨scopes, same, rfl⟩

/-- A compound assignment reads the same value and stores the same result. -/
theorem finishAssign
    (line : Nat)
    (op : Option BinaryOp)
    (place : Place)
    (value : Value) :
    (state.finishAssign line op place value).Alike (other.finishAssign line op place value) := by
  cases op with
  | none => exact alike.storeAndGive line place value value
  | some op =>
      unfold State.finishAssign
      dsimp only
      rw [alike.readPlace, alike.world]
      split
      · exact alike.goto _
      · split
        · exact alike.goto _
        · exact alike.storeAndGive line place _ _

/-- A step up or down reads the same number and stores the same result. -/
theorem finishUpdate
    (line : Nat)
    (step : Step)
    (fixity : Fixity)
    (place : Place) :
    (state.finishUpdate line step fixity place).Alike
      (other.finishUpdate line step fixity place) := by
  unfold State.finishUpdate
  rw [alike.readPlace, alike.world]
  split
  · exact alike.goto _
  · split
    · exact alike.goto _
    · exact alike.storeAndGive line place _ _

theorem stepUse
    (place : Place)
    (wanted : PlaceUse) :
    (state.stepUse place wanted).Alike (other.stepUse place wanted) := by
  cases wanted with
  | read line =>
      unfold State.stepUse
      dsimp only
      rw [alike.readPlace]
      split <;> exact alike.goto _
  | assign => exact alike.into _ _
  | update line step fixity => exact alike.finishUpdate line step fixity place

/-- A call is refused in both states or opens a scope in both. -/
theorem enterFunction
    (closure : Closure)
    (arguments : List Value)
    (line : Nat) :
    (state.enterFunction closure arguments line).Alike
      (other.enterFunction closure arguments line) := by
  obtain ⟨scopes, same, rfl⟩ := alike
  have sameDepth : (state.withScopes scopes).depth = state.depth := rfl
  have sameOpen :
      (state.withScopes scopes).scopes.isOpen closure.scope =
        state.scopes.isOpen closure.scope :=
    (same.isOpen closure.scope).symm
  unfold State.enterFunction
  rw [sameDepth, sameOpen]
  split
  · exact ⟨scopes, same, rfl⟩
  · split
    · exact ⟨_, same.pushUnder closure.scope, rfl⟩
    · exact ⟨scopes, same, rfl⟩

/-- A call of a function enters it in both states; a native call sees the same world. -/
theorem stepCall
    (callee : Value)
    (arguments : List Value)
    (line : Nat) :
    (state.stepCall callee arguments line).Alike (other.stepCall callee arguments line) := by
  cases callee with
  | function closure => exact alike.enterFunction closure arguments line
  | builtin builtin =>
      obtain ⟨scopes, same, rfl⟩ := alike
      have sameWorld : (state.withScopes scopes).world = state.world := rfl
      unfold State.stepCall State.callNative
      dsimp only
      rw [sameWorld]
      split <;> exact ⟨scopes, same, rfl⟩
  | _ => exact alike.goto _

/-- A method sees the same world in both states. -/
theorem stepInvoke
    (object : Value)
    (name : String)
    (arguments : List Value)
    (line : Nat) :
    (state.stepInvoke object name arguments line).Alike
      (other.stepInvoke object name arguments line) := by
  cases object with
  | object handle =>
      obtain ⟨scopes, same, rfl⟩ := alike
      have sameWorld : (state.withScopes scopes).world = state.world := rfl
      unfold State.stepInvoke
      dsimp only
      rw [sameWorld]
      split <;> exact ⟨scopes, same, rfl⟩
  | _ => exact alike.goto _

/-- Parameters are bound to the same arguments in both states. -/
theorem stepBind
    (parameters : List Parameter)
    (arguments : List Value)
    (body : List Stmt) :
    (state.stepBind parameters arguments body).Alike
      (other.stepBind parameters arguments body) := by
  rcases parameters with _ | ⟨⟨name, default⟩, rest⟩
  · exact alike.goto _
  · rcases arguments with _ | ⟨argument, arguments⟩
    · cases default with
      | none => exact (alike.declare name .undefined).goto _
      | some default => exact alike.into _ _
    · exact (alike.declare name argument).goto _

/-- The same click is taken in both states, and the same handler called. -/
theorem stepNextClick : state.stepNextClick.Alike other.stepNextClick := by
  obtain ⟨scopes, same, rfl⟩ := alike
  have sameWorld : (state.withScopes scopes).world = state.world := rfl
  have sameLive : (state.withScopes scopes).live = state.live := rfl
  unfold State.stepNextClick
  dsimp only
  rw [sameWorld, sameLive]
  split
  · exact ⟨scopes, same, rfl⟩
  · split
    · exact ⟨scopes, same, rfl⟩
    · split <;> exact ⟨scopes, same, rfl⟩

/-- The entry points are found alike, wherever their declarations stand. -/
theorem entryPoint? (name : String) : other.entryPoint? name = state.entryPoint? name := by
  obtain ⟨scopes, same, rfl⟩ := alike
  unfold State.entryPoint?
  rw [same.getFrom?]
  rfl

theorem finish : state.finish.Alike other.finish := by
  obtain ⟨scopes, same, rfl⟩ := alike
  exact ⟨scopes, same, rfl⟩

theorem stepFindSetup : state.stepFindSetup.Alike other.stepFindSetup := by
  unfold State.stepFindSetup
  rw [alike.entryPoint?]
  split
  · exact alike.into _ _
  · exact alike.goto _

theorem stepFindLoop : state.stepFindLoop.Alike other.stepFindLoop := by
  unfold State.stepFindLoop
  rw [alike.entryPoint?]
  split
  · exact alike.goto _
  · exact alike.finish

/-- The loop goes on in both states or in neither. -/
theorem stepLoopTop (main : Value) : (state.stepLoopTop main).Alike (other.stepLoopTop main) := by
  obtain ⟨scopes, same, rfl⟩ := alike
  have sameLive : (state.withScopes scopes).live = state.live := rfl
  have sameLimit : (state.withScopes scopes).limitReached = state.limitReached := rfl
  unfold State.stepLoopTop
  rw [sameLive, sameLimit]
  split
  · split <;> exact ⟨scopes, same, rfl⟩
  · exact ⟨scopes, same, rfl⟩

/-- A value does the same to the frame that waits for it in both states. -/
theorem stepValue
    (value : Value)
    (frame : Frame) :
    (state.stepValue value frame).Alike (other.stepValue value frame) := by
  cases frame with
  | unaryOperand | castOperand => exact alike.giveOperation _ _
  | rightOperand line op left =>
      unfold State.stepValue
      dsimp only
      rw [alike.world]
      exact alike.giveOperation line _
  | logicalLeft op right =>
      unfold State.stepValue
      dsimp only
      split
      · exact alike.goto _
      · exact alike.goto _
      · exact alike.into _ _
  | assignedValue line op place => exact alike.finishAssign line op place value
  | memberObject line name =>
      unfold State.stepValue
      dsimp only
      rw [alike.world]
      split <;> exact alike.goto _
  | indexPosition line object wanted =>
      unfold State.stepValue
      dsimp only
      rw [alike.world]
      split
      · exact alike.goto _
      · split <;> exact alike.goto _
  | declaredValue name rest => exact (alike.declare name value).goto _
  | defaultValue name rest body => exact (alike.declare name value).goto _
  | branchTest whenTrue whenFalse =>
      unfold State.stepValue
      dsimp only
      split
      · exact alike.goto _
      · split <;> exact alike.goto _
  | loopTest loop =>
      unfold State.stepValue
      dsimp only
      split
      · exact alike.into _ _
      · exact alike.goto _
  | switchTest wanted rest cases =>
      unfold State.stepValue
      dsimp only
      split
      · exact alike.enterCases rest
      · exact alike.goto _
  | delayEnd line =>
      obtain ⟨scopes, same, rfl⟩ := alike
      have sameLive : (state.withScopes scopes).live = state.live := rfl
      unfold State.stepValue
      dsimp only
      rw [sameLive]
      split <;> exact ⟨scopes, same, rfl⟩
  | _ =>
      obtain ⟨scopes, same, rfl⟩ := alike
      exact ⟨scopes, same, rfl⟩

/-- A jump leaves the same frame in both states. -/
theorem stepFlow
    (flow : Flow)
    (frame : Frame) :
    (state.stepFlow flow frame).Alike (other.stepFlow flow frame) := by
  cases frame with
  | blockRest | loopStart | loopBody | caseRest | topLevel => cases flow <;> exact alike.goto _
  | openScope => exact alike.closeScope.goto _
  | activation outerDepth =>
      obtain ⟨scopes, same, rfl⟩ := alike
      exact ⟨_, same.pop, rfl⟩
  | _ => exact alike.into _ _

/-- A failure unwinds the same frame in both states. -/
theorem stepRaise (frame : Frame) : (state.stepRaise frame).Alike (other.stepRaise frame) := by
  cases frame with
  | openScope => exact alike.closeScope
  | activation outerDepth =>
      obtain ⟨scopes, same, rfl⟩ := alike
      exact ⟨_, same.pop, rfl⟩
  | handlerCall =>
      obtain ⟨scopes, same, rfl⟩ := alike
      exact ⟨scopes, same, rfl⟩
  | _ => exact alike

/-- Alike states make the same step. -/
theorem step : state.step.Alike other.step := by
  unfold State.step
  rw [alike.control, alike.stack]
  split
  · exact alike.stepEval _
  · exact alike.stepExec _
  · obtain ⟨scopes, same, rfl⟩ := alike
    exact ⟨_, alike_hoist state.nextBirth _ same, rfl⟩
  · exact alike.goto _
  · exact alike.into _ _
  · exact alike.stepDeclare _
  · unfold State.stepTurn
    split <;> exact alike.into _ _
  · unfold State.stepSteps
    split
    · exact alike.goto _
    · exact alike.into _ _
  · exact alike.stepFindCase _ _ _
  · unfold State.stepCases
    split
    · exact alike.goto _
    · exact alike.into _ _
  · unfold State.stepArrayItems
    split
    · obtain ⟨scopes, same, rfl⟩ := alike
      exact ⟨scopes, same, rfl⟩
    · exact alike.into _ _
  · exact alike.stepArguments _ _ _ _
  · exact alike.stepResolve _ _
  · exact alike.stepUse _ _
  · exact alike.stepCall _ _ _
  · exact alike.stepInvoke _ _ _ _
  · exact alike.stepBind _ _ _
  · obtain ⟨scopes, same, rfl⟩ := alike
    have sameDispatching : (state.withScopes scopes).dispatching = state.dispatching := rfl
    unfold State.stepDispatch
    rw [sameDispatching]
    split <;> exact ⟨scopes, same, rfl⟩
  · exact alike.stepNextClick
  · exact alike.stepFindSetup
  · exact alike.stepFindLoop
  · exact alike.stepLoopTop _
  · split
    · exact alike.finish
    · exact (alike.popped _).stepValue _ _
  · split
    · exact alike.finish
    · exact (alike.popped _).stepFlow _ _
  · split
    · exact alike.goto _
    · exact (alike.popped _).stepRaise _
  · exact alike
  · exact alike

end Steps

end State.Alike

end LedSketch.Machine
