import LedSketch.Proofs.Machine.Anchored
import LedSketch.Proofs.Machine.Floor

namespace LedSketch.Machine

/-!
# Calm evaluation

To evaluate an expression declares nothing in the scope in which it is evaluated, and enters
no block there.  Only the functions that it calls do such things, in scopes of their own.
With it goes the declaration of variables, as long as the scope is not sealed.
-/

open Script

section Definitions

variable (sealed : Bool)

/-- Whether a control belongs to the evaluation of an expression, or declares a variable. -/
def Control.isCalm : Control → Bool
  | .declare _ => !sealed
  | .eval _ => true
  | .arrayItems _ _ => true
  | .collectArguments _ _ _ _ => true
  | .resolve _ _ => true
  | .use _ _ => true
  | .call _ _ _ => true
  | .invoke _ _ _ _ => true
  | .dispatch => true
  | .nextClick => true
  | .value _ => true
  | .flow _ => true
  | .raise _ => true
  | .suspended => true
  | .halted _ => true
  | _ => false

/-- Whether a frame belongs to the evaluation of an expression, or declares a variable. -/
def Frame.isCalm : Frame → Bool
  | .declaredValue _ _ => !sealed
  | .arrayItem _ _ => true
  | .unaryOperand _ _ => true
  | .leftOperand _ _ _ => true
  | .rightOperand _ _ _ => true
  | .logicalLeft _ _ => true
  | .logicalRight => true
  | .conditionalTest _ _ => true
  | .assignedValue _ _ _ => true
  | .castOperand _ _ => true
  | .memberObject _ _ => true
  | .callTarget _ _ => true
  | .methodObject _ _ _ => true
  | .callArgument _ _ _ _ => true
  | .indexedObject _ _ _ => true
  | .indexPosition _ _ _ => true
  | .discarded => true
  | .handlerCall => true
  | .delayEnd _ => true
  | _ => false

/-- A state that is calm, or at work in a scope that was opened above calm frames. -/
inductive State.Calm (state : State) : Prop where
  | calm
      (control : state.control.isCalm sealed = true)
      (frames : ∀ frame ∈ state.stack, frame.isCalm sealed = true) :
      Calm state
  | within
      {inner outer : List Frame}
      {closing : Frame}
      (stack : state.stack = inner ++ closing :: outer)
      (closes : closing.closes = true)
      (frames : ∀ frame ∈ outer, frame.isCalm sealed = true) :
      Calm state

/-- A step goes on calmly, or it enters a function. -/
inductive State.GoesOn (state next : State) : Prop where
  | calmly
      {pushed : List Frame}
      (control : next.control.isCalm sealed = true)
      (stack : next.stack = pushed ++ state.stack)
      (frames : ∀ frame ∈ pushed, frame.isCalm sealed = true) :
      GoesOn state next
  | enters
      {depth : Nat}
      (stack : next.stack = .activation depth :: state.stack) :
      GoesOn state next

end Definitions

variable {sealed : Bool} {state next : State}

namespace State.GoesOn

/-- What is calm may be done next. -/
theorem goto
    {control : Control}
    (calm : control.isCalm sealed = true) :
    GoesOn sealed state (state.goto control) :=
  .calmly calm (List.nil_append _).symm (by simp)

/-- A calm frame may be put on the stack. -/
theorem into
    {frame : Frame}
    {control : Control}
    (calmFrame : frame.isCalm sealed = true)
    (calmControl : control.isCalm sealed = true) :
    GoesOn sealed state (state.into frame control) := by
  have grown : (state.into frame control).stack = [frame] ++ state.stack := rfl
  exact .calmly calmControl grown (List.forall_mem_singleton.mpr calmFrame)

/-- The scopes may have been changed before. -/
theorem of_withScopes
    {scopes : Scopes}
    (onward : GoesOn sealed (state.withScopes scopes) next) :
    GoesOn sealed state next := by
  cases onward with
  | calmly control stack frames => exact .calmly control stack frames
  | enters stack => exact .enters stack

/-- Arrays and board may have been changed before. -/
theorem of_withWorld
    {world : World}
    (onward : GoesOn sealed (state.withWorld world) next) :
    GoesOn sealed state next := by
  cases onward with
  | calmly control stack frames => exact .calmly control stack frames
  | enters stack => exact .enters stack

theorem giveOperation
    (line : Nat)
    (computed : Except TypeFault Value) :
    GoesOn sealed state (state.giveOperation line computed) := by
  cases computed <;> exact goto rfl

/-- To begin an expression is calm. -/
theorem stepEval (expr : Expr) : GoesOn sealed state (state.stepEval expr) := by
  cases expr with
  | int | float | text | bool | undefined => exact goto rfl
  | array | assign | update | await | index => exact goto rfl
  | unary | binary | logical | conditional | cast | member => exact into rfl rfl
  | name line name =>
      unfold State.stepEval
      dsimp only
      split <;> exact goto rfl
  | call line callee arguments => cases callee <;> exact into rfl rfl

/-- Declarations are calm in a scope that is not sealed. -/
theorem stepDeclare
    (unsealed : sealed = false)
    (declarators : List Declarator) :
    GoesOn sealed state (state.stepDeclare declarators) := by
  subst unsealed
  unfold State.stepDeclare
  split
  · exact goto rfl
  · split
    · exact into rfl rfl
    · exact of_withScopes (goto rfl)

theorem stepArrayItems
    (done : List Value)
    (rest : List Expr) :
    GoesOn sealed state (state.stepArrayItems done rest) := by
  cases rest with
  | nil => exact of_withWorld (goto rfl)
  | cons item rest => exact into rfl rfl

theorem stepArguments
    (line : Nat)
    (callee : Callee)
    (done : List Value)
    (rest : List Expr) :
    GoesOn sealed state (state.stepArguments line callee done rest) := by
  cases rest with
  | nil => cases callee <;> exact goto rfl
  | cons argument rest => exact into rfl rfl

theorem stepResolve
    (target : Expr)
    (wanted : PlaceUse) :
    GoesOn sealed state (state.stepResolve target wanted) := by
  unfold State.stepResolve
  split
  · exact goto rfl
  · exact into rfl rfl
  · exact goto rfl

/-- To store a value is calm. -/
theorem storeAndGive
    (line : Nat)
    (place : Place)
    (stored given : Value) :
    GoesOn sealed state (state.storeAndGive line place stored given) := by
  unfold State.storeAndGive State.writePlace
  rcases place with name | ⟨id, position⟩
  · dsimp only
    cases state.scopes.set? name stored with
    | none => exact goto rfl
    | some scopes => exact of_withScopes (goto rfl)
  · exact of_withWorld (goto rfl)

theorem finishAssign
    (line : Nat)
    (op : Option BinaryOp)
    (place : Place)
    (value : Value) :
    GoesOn sealed state (state.finishAssign line op place value) := by
  unfold State.finishAssign
  split
  · exact storeAndGive ..
  · split
    · exact goto rfl
    · split
      · exact goto rfl
      · exact storeAndGive ..

theorem stepUse
    (place : Place)
    (wanted : PlaceUse) :
    GoesOn sealed state (state.stepUse place wanted) := by
  unfold State.stepUse
  split
  · split <;> exact goto rfl
  · exact into rfl rfl
  · unfold State.finishUpdate
    split
    · exact goto rfl
    · split
      · exact goto rfl
      · exact storeAndGive ..

/-- A call leaves the calm at its function, or has a value at once. -/
theorem stepCall
    (callee : Value)
    (arguments : List Value)
    (line : Nat) :
    GoesOn sealed state (state.stepCall callee arguments line) := by
  cases callee with
  | function closure =>
      unfold State.stepCall State.enterFunction
      dsimp only
      split
      · exact goto rfl
      · split
        · exact .enters rfl
        · exact goto rfl
  | builtin builtin =>
      unfold State.stepCall State.callNative
      dsimp only
      split
      · exact of_withWorld (goto rfl)
      · exact of_withWorld (into rfl rfl)
      · exact of_withWorld (goto rfl)
  | _ => exact goto rfl

theorem stepInvoke
    (object : Value)
    (name : String)
    (arguments : List Value)
    (line : Nat) :
    GoesOn sealed state (state.stepInvoke object name arguments line) := by
  cases object with
  | object handle =>
      unfold State.stepInvoke
      dsimp only
      split <;> exact of_withWorld (goto rfl)
  | _ => exact goto rfl

theorem stepDispatch : GoesOn sealed state state.stepDispatch := by
  unfold State.stepDispatch
  split
  · exact goto rfl
  · exact .calmly rfl (List.nil_append _).symm (by simp)

/-- The handler of a click leaves the calm. -/
theorem stepNextClick
    (selecting : state.control = .nextClick) :
    GoesOn sealed state state.stepNextClick := by
  unfold State.stepNextClick
  dsimp only
  split
  · exact .calmly rfl (List.nil_append _).symm (by simp)
  · split
    · refine .calmly ?_ (List.nil_append _).symm (by simp)
      change state.control.isCalm sealed = true
      rw [selecting]
      rfl
    · split
      · exact of_withWorld (into rfl rfl)
      · exact .calmly rfl (List.nil_append _).symm (by simp)

/-- A calm frame goes on calmly with a value. -/
theorem stepValue
    {frame : Frame}
    (calm : frame.isCalm sealed = true)
    (value : Value) :
    GoesOn sealed state (state.stepValue value frame) := by
  cases frame with
  | arrayItem | conditionalTest | callTarget | methodObject | callArgument | discarded
  | logicalRight | handlerCall => exact goto rfl
  | unaryOperand | rightOperand | castOperand => exact giveOperation ..
  | leftOperand | indexedObject => exact into rfl rfl
  | logicalLeft op right =>
      unfold State.stepValue
      dsimp only
      split
      · exact goto rfl
      · exact goto rfl
      · exact into rfl rfl
  | assignedValue => exact finishAssign ..
  | memberObject line name =>
      unfold State.stepValue
      dsimp only
      split <;> exact goto rfl
  | indexPosition line object wanted =>
      unfold State.stepValue
      dsimp only
      split
      · exact goto rfl
      · split <;> exact goto rfl
  | delayEnd line =>
      unfold State.stepValue
      dsimp only
      split <;> exact goto rfl
  | declaredValue name rest => exact of_withScopes (goto calm)
  | _ => cases calm

/-- A calm frame takes a completion for a value. -/
theorem stepFlow
    {frame : Frame}
    (calm : frame.isCalm sealed = true)
    (flow : Flow) :
    GoesOn sealed state (state.stepFlow flow frame) := by
  cases frame with
  | blockRest | openScope | loopStart | loopBody | caseRest | activation | topLevel => cases calm
  | _ => exact into calm rfl

/-- An interrupt passes a calm frame. -/
theorem stepRaise
    {frame : Frame}
    (raising : state.control.isCalm sealed = true)
    (calm : frame.isCalm sealed = true) :
    GoesOn sealed state (state.stepRaise frame) := by
  cases frame with
  | openScope | activation => cases calm
  | _ => exact .calmly raising (List.nil_append _).symm (by simp)

end State.GoesOn

namespace State.Calm

/-- What goes on from calm frames is calm. -/
theorem of_goesOn
    (frames : ∀ frame ∈ state.stack, frame.isCalm sealed = true)
    (onward : GoesOn sealed state next) :
    Calm sealed next := by
  cases onward with
  | calmly control stack pushed =>
      refine .calm control ?_
      rw [stack]
      exact List.forall_mem_append.mpr ⟨pushed, frames⟩
  | @enters depth stack =>
      have grown : next.stack = [] ++ .activation depth :: state.stack := stack
      exact .within grown rfl frames

/-- A step from a calm state with calm frames is calm. -/
theorem step_of_calm
    (control : state.control.isCalm sealed = true)
    (frames : ∀ frame ∈ state.stack, frame.isCalm sealed = true) :
    Calm sealed state.step := by
  have halts : GoesOn sealed state state.finish := .goto rfl
  unfold State.step
  cases asked : state.control <;> rw [asked] at control
  case eval expr => exact of_goesOn frames (.stepEval expr)
  case declare declarators =>
    exact of_goesOn frames (.stepDeclare ((Bool.not_eq_true' _).mp control) declarators)
  case arrayItems done rest => exact of_goesOn frames (.stepArrayItems done rest)
  case collectArguments line callee done rest =>
    exact of_goesOn frames (.stepArguments line callee done rest)
  case resolve target wanted => exact of_goesOn frames (.stepResolve target wanted)
  case use place wanted => exact of_goesOn frames (.stepUse place wanted)
  case call callee arguments line => exact of_goesOn frames (.stepCall callee arguments line)
  case invoke object name arguments line =>
    exact of_goesOn frames (.stepInvoke object name arguments line)
  case dispatch => exact of_goesOn frames .stepDispatch
  case nextClick => exact of_goesOn frames (.stepNextClick asked)
  case value value =>
    cases top : state.stack with
    | nil => exact of_goesOn frames halts
    | cons frame rest =>
        rw [top] at frames
        obtain ⟨calm, others⟩ := List.forall_mem_cons.mp frames
        have below : ∀ frame ∈ (state.popped rest).stack, frame.isCalm sealed = true := others
        exact of_goesOn below (.stepValue calm value)
  case flow flow =>
    cases top : state.stack with
    | nil => exact of_goesOn frames halts
    | cons frame rest =>
        rw [top] at frames
        obtain ⟨calm, others⟩ := List.forall_mem_cons.mp frames
        have below : ∀ frame ∈ (state.popped rest).stack, frame.isCalm sealed = true := others
        exact of_goesOn below (.stepFlow calm flow)
  case raise interrupt =>
    cases top : state.stack with
    | nil => exact of_goesOn frames (.goto rfl)
    | cons frame rest =>
        rw [top] at frames
        obtain ⟨calm, others⟩ := List.forall_mem_cons.mp frames
        have below : ∀ frame ∈ (state.popped rest).stack, frame.isCalm sealed = true := others
        have raising : (state.popped rest).control.isCalm sealed = true := by
          change state.control.isCalm sealed = true
          rw [asked]
          rfl
        exact of_goesOn below (.stepRaise raising calm)
  case suspended | halted =>
    refine .calm ?_ frames
    rw [asked]
    rfl
  all_goals cases control

/-- Below the last scope that was opened the frames stay calm. -/
theorem step (calm : state.Calm sealed) : state.step.Calm sealed := by
  cases calm with
  | calm control frames => exact step_of_calm control frames
  | @within inner outer closing stack closes frames =>
      let alone : State := { state with stack := inner }
      have same : alone.onFloor (closing :: outer) = state := by
        rw [State.onFloor, ← stack]
      by_cases working : alone.stack ≠ [] ∨ alone.control.isResult = false
      · have stepped := State.step_onFloor (closing :: outer) alone working
        rw [same] at stepped
        rw [stepped]
        exact .within rfl closes frames
      · rw [not_or, Classical.not_not, Bool.not_eq_false] at working
        obtain ⟨rfl, isResult⟩ : inner = [] ∧ state.control.isResult = true := working
        rw [List.nil_append] at stack
        unfold State.step
        rw [stack]
        cases control : state.control <;> rw [control] at isResult
        case value value =>
          -- A frame that closes a scope takes no value and is put back.
          have putBack :
              (((state.popped outer).into closing (.flow .normal)).stack =
                [] ++ closing :: outer) :=
            rfl
          cases closing with
          | openScope | activation => exact .within putBack closes frames
          | _ => cases closes
        case flow flow =>
          cases closing with
          | openScope | activation => exact .calm rfl frames
          | _ => cases closes
        case raise interrupt =>
          have raising : state.control.isCalm sealed = true := by
            rw [control]
            rfl
          cases closing with
          | openScope | activation => exact .calm raising frames
          | _ => cases closes
        all_goals cases isResult

/-- The host that polls has no part in the calm. -/
theorem wake
    (calm : state.Calm sealed)
    (host : Host) :
    (state.wake host).Calm sealed := by
  cases calm with
  | calm control frames => exact .calm rfl frames
  | within stack closes frames => exact .within stack closes frames

/-- What is not calm is done in a scope that was opened above the calm frames. -/
theorem countP_closes_pos
    (calm : state.Calm sealed)
    (restless :
      state.control.isCalm sealed = false ∨
        ∃ frame ∈ state.stack, frame.isCalm sealed = false) :
    0 < state.stack.countP Frame.closes := by
  cases calm with
  | calm control frames =>
      obtain isRestless | ⟨frame, member, isRestless⟩ := restless
      · exact (Bool.eq_false_iff.mp isRestless control).elim
      · exact (Bool.eq_false_iff.mp isRestless (frames frame member)).elim
  | within stack closes frames =>
      refine List.countP_pos_iff.mpr ⟨_, ?_, closes⟩
      rw [stack]
      exact List.mem_append_right _ List.mem_cons_self

end State.Calm

end LedSketch.Machine
