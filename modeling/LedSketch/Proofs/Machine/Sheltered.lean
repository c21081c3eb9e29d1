import LedSketch.Proofs.Machine.Scoping
import LedSketch.Proofs.Machine.Stale
import LedSketch.Proofs.Machine.Values
import LedSketch.Proofs.Script.CallerScopes
import LedSketch.Simulation.Run

namespace LedSketch.Machine

/-!
# Scopes below a call

While a call lasts, code runs only in scopes that were opened for functions which the call
has entered.  In between, while a call is made, clicks are handled or the run is with its
host, no variable is touched.
-/

open Script

/-- Whether a frame waits for a handler or for the host. -/
def Frame.isPause : Frame → Bool
  | .handlerCall => true
  | .delayEnd _ => true
  | _ => false

/-- Whether a control makes a call, handles clicks or rests, and touches no variable. -/
def Control.isCalling : Control → Bool
  | .call _ _ _ => true
  | .dispatch => true
  | .nextClick => true
  | .suspended => true
  | .value _ => true
  | .raise _ => true
  | _ => false

theorem Control.isCalling_of_isAnswer
    {control : Control}
    (answers : control.isAnswer = true) :
    control.isCalling = true := by
  cases control <;> first | rfl | contradiction

/-- A call has ended: its value is given to the frames below it, or an interrupt reaches them. -/
structure State.Ends
    (floor : List Frame)
    (state : State) :
    Prop where
  stack : state.stack = floor
  answers : state.control.isAnswer = true

/-- The run is at a call over a floor, in a state that has kept the scopes of its caller. -/
inductive State.Sheltered
    (floor : List Frame)
    (kept : List Scope)
    (bound : Nat)
    (state : State) :
    Prop where
  | calling
      {waiting : List Frame}
      (stack : state.stack = waiting ++ floor)
      (pauses : ∀ frame ∈ waiting, frame.isPause = true)
      (calls : state.control.isCalling = true)
      (scopes : state.scopes.Over kept bound 0) :
      Sheltered floor kept bound state
  | entered
      {inner waiting : List Frame}
      {depth : Nat}
      (stack : state.stack = inner ++ .activation depth :: (waiting ++ floor))
      (pauses : ∀ frame ∈ waiting, frame.isPause = true)
      (scopes : state.scopes.Over kept bound (inner.countP Frame.closes + 1)) :
      Sheltered floor kept bound state

namespace State.Sheltered

variable {floor : List Frame} {kept : List Scope} {bound : Nat} {state base next : State}

/-- The scopes of the caller are open and unchanged. -/
theorem locals (sheltered : state.Sheltered floor kept bound) : kept <:+ state.scopes.locals := by
  cases sheltered with
  | calling stack pauses calls scopes => exact scopes.locals
  | entered stack pauses scopes => exact scopes.locals

/-- When the call ends, no scopes are open but those of the caller and the outermost one. -/
theorem locals_eq
    (sheltered : state.Sheltered floor kept bound)
    (alone : state.stack = floor) :
    state.scopes.locals = kept := by
  cases sheltered with
  | calling stack pauses calls scopes => exact scopes.locals_eq
  | @entered inner waiting depth stack pauses scopes =>
      have longer := congrArg List.length (stack.symm.trans alone)
      simp only [List.length_append, List.length_cons] at longer
      omega

/-- The caller's scopes are those that are open when it calls. -/
theorem of_call
    {callee : Value}
    {arguments : List Value}
    {line : Nat}
    (asked : state.control = .call callee arguments line)
    (nested : state.Nested) :
    state.Sheltered state.stack state.scopes.locals state.scopes.next :=
  .calling (List.nil_append _).symm (by simp) (by rw [asked]; rfl) (.of_nested nested)

section Calling

variable {waiting : List Frame}

theorem of_enterFunction
    {closure : Closure}
    (stack : state.stack = waiting ++ floor)
    (pauses : ∀ frame ∈ waiting, frame.isPause = true)
    (scopes : state.scopes.Over kept bound 0)
    (global : closure.scope = Scopes.globalId)
    (arguments : List Value)
    (line : Nat) :
    (state.enterFunction closure arguments line).Sheltered floor kept bound := by
  unfold State.enterFunction
  split
  · exact .calling stack pauses rfl scopes
  · split
    · have opened := scopes.pushUnder (.inl global)
      have grown :
          .activation state.depth :: state.stack =
            [] ++ .activation state.depth :: (waiting ++ floor) :=
        congrArg _ stack
      exact .entered grown pauses opened
    · exact .calling stack pauses rfl scopes

theorem of_stepCall
    {callee : Value}
    {arguments : List Value}
    {line : Nat}
    (asked : state.control = .call callee arguments line)
    (stack : state.stack = waiting ++ floor)
    (pauses : ∀ frame ∈ waiting, frame.isPause = true)
    (scopes : state.scopes.Over kept bound 0)
    (global :
      ∀ closure,
        state.control.calledFunction? = some closure →
        closure.scope = Scopes.globalId) :
    (state.stepCall callee arguments line).Sheltered floor kept bound := by
  cases callee with
  | function closure =>
      exact of_enterFunction stack pauses scopes (global closure (by rw [asked]; rfl))
        arguments line
  | builtin builtin =>
      unfold State.stepCall State.callNative
      dsimp only
      split
      · exact .calling stack pauses rfl scopes
      · have waits : ∀ frame ∈ .delayEnd line :: waiting, frame.isPause = true :=
          List.forall_mem_cons.mpr ⟨rfl, pauses⟩
        have grown : .delayEnd line :: state.stack = (.delayEnd line :: waiting) ++ floor :=
          congrArg _ stack
        exact .calling grown waits rfl scopes
      · exact .calling stack pauses rfl scopes
  | _ => exact .calling stack pauses rfl scopes

theorem of_stepNextClick
    (selecting : state.control = .nextClick)
    (stack : state.stack = waiting ++ floor)
    (pauses : ∀ frame ∈ waiting, frame.isPause = true)
    (scopes : state.scopes.Over kept bound 0) :
    state.stepNextClick.Sheltered floor kept bound := by
  unfold State.stepNextClick
  dsimp only
  split
  · exact .calling stack pauses rfl scopes
  · split
    · exact .calling stack pauses (congrArg Control.isCalling selecting) scopes
    · split
      · have waits : ∀ frame ∈ .handlerCall :: waiting, frame.isPause = true :=
          List.forall_mem_cons.mpr ⟨rfl, pauses⟩
        have grown : .handlerCall :: state.stack = (.handlerCall :: waiting) ++ floor :=
          congrArg _ stack
        exact .calling grown waits rfl scopes
      · exact .calling stack pauses rfl scopes

theorem of_stepValue
    {frame : Frame}
    {value : Value}
    (stack : state.stack = waiting ++ floor)
    (pauses : ∀ frame ∈ waiting, frame.isPause = true)
    (pause : frame.isPause = true)
    (scopes : state.scopes.Over kept bound 0) :
    (state.stepValue value frame).Sheltered floor kept bound := by
  cases frame with
  | handlerCall => exact .calling stack pauses rfl scopes
  | delayEnd line =>
      unfold State.stepValue
      dsimp only
      split
      · exact .calling stack pauses rfl scopes
      · exact .calling stack pauses rfl scopes
  | _ => contradiction

theorem of_stepRaise
    {frame : Frame}
    (raises : state.control.isCalling = true)
    (stack : state.stack = waiting ++ floor)
    (pauses : ∀ frame ∈ waiting, frame.isPause = true)
    (pause : frame.isPause = true)
    (scopes : state.scopes.Over kept bound 0) :
    (state.stepRaise frame).Sheltered floor kept bound := by
  cases frame with
  | handlerCall | delayEnd => exact .calling stack pauses raises scopes
  | _ => contradiction

/-- A call that has not ended goes on without touching a variable, or enters a function. -/
theorem step_calling
    (stack : state.stack = waiting ++ floor)
    (pauses : ∀ frame ∈ waiting, frame.isPause = true)
    (calls : state.control.isCalling = true)
    (scopes : state.scopes.Over kept bound 0)
    (global :
      ∀ closure,
        state.control.calledFunction? = some closure →
        closure.scope = Scopes.globalId)
    (lasts : ¬ state.Ends floor) :
    state.step.Sheltered floor kept bound := by
  -- A result is not given to the floor, so a frame of the call takes it.
  have top (answers : state.control.isAnswer = true) :
      ∃ frame rest,
        state.stack = frame :: (rest ++ floor) ∧ frame.isPause = true ∧
          ∀ other ∈ rest, other.isPause = true := by
    cases waiting with
    | nil => exact (lasts ⟨stack, answers⟩).elim
    | cons frame rest =>
        obtain ⟨first, others⟩ := List.forall_mem_cons.mp pauses
        exact ⟨frame, rest, stack, first, others⟩
  cases control : state.control with
  | call callee arguments line =>
      have stepped : state.step = state.stepCall callee arguments line := by
        rw [State.step, control]
      rw [stepped]
      exact of_stepCall control stack pauses scopes global
  | dispatch =>
      have stepped : state.step = state.stepDispatch := by rw [State.step, control]
      rw [stepped, State.stepDispatch]
      split
      · exact .calling stack pauses rfl scopes
      · exact .calling stack pauses rfl scopes
  | nextClick =>
      have stepped : state.step = state.stepNextClick := by rw [State.step, control]
      rw [stepped]
      exact of_stepNextClick control stack pauses scopes
  | suspended =>
      have stepped : state.step = state := by rw [State.step, control]
      rw [stepped]
      exact .calling stack pauses calls scopes
  | value value =>
      obtain ⟨frame, rest, whole, pause, others⟩ := top (by rw [control]; rfl)
      rw [State.step_of_value control whole]
      exact of_stepValue rfl others pause scopes
  | raise interrupt =>
      obtain ⟨frame, rest, whole, pause, others⟩ := top (by rw [control]; rfl)
      rw [State.step_of_raise control whole]
      exact of_stepRaise calls rfl others pause scopes
  | _ =>
      rw [control] at calls
      contradiction

end Calling

section Entered

variable {inner waiting : List Frame} {depth : Nat}

/-- A frame that closes no scope lies above the function that the call has entered. -/
theorem exists_inner
    (taken : Taken state base)
    (stack : state.stack = inner ++ .activation depth :: (waiting ++ floor)) :
    base.scopes = state.scopes ∧
      ∃ left,
        base.stack = left ++ .activation depth :: (waiting ++ floor) ∧
          left.countP Frame.closes = inner.countP Frame.closes := by
  cases taken with
  | nothing => exact ⟨rfl, inner, stack, rfl⟩
  | frame top other =>
      refine ⟨rfl, ?_⟩
      rw [stack] at top
      cases inner with
      | nil =>
          obtain ⟨rfl, _⟩ := List.cons.inj top
          contradiction
      | cons first left =>
          obtain ⟨rfl, rfl⟩ := List.cons.inj top
          refine ⟨left, rfl, ?_⟩
          rw [List.countP_cons_of_neg (by rw [other]; exact Bool.false_ne_true)]

/-- Code of a function that the call has entered runs in the scopes that were opened for it. -/
theorem of_sameScopes
    (onward : SameScopes base next)
    (stack : base.stack = inner ++ .activation depth :: (waiting ++ floor))
    (pauses : ∀ frame ∈ waiting, frame.isPause = true)
    (earlier : ∀ scope ∈ kept, scope.Before bound)
    (scopes : base.scopes.Over kept bound (inner.countP Frame.closes + 1)) :
    next.Sheltered floor kept bound := by
  obtain ⟨⟨pushed, grown, others⟩, writes, _⟩ := onward
  have none : pushed.countP Frame.closes = 0 :=
    List.countP_eq_zero.mpr fun frame member => by simp [others frame member]
  have whole : next.stack = (pushed ++ inner) ++ .activation depth :: (waiting ++ floor) := by
    rw [grown, stack, List.append_assoc]
  refine .entered whole pauses ?_
  rw [List.countP_append, none, Nat.zero_add]
  exact scopes.writes earlier (Nat.succ_pos _) writes

/-- The code of the functions that a call has entered opens its own scopes and closes them. -/
theorem step_entered
    (stack : state.stack = inner ++ .activation depth :: (waiting ++ floor))
    (pauses : ∀ frame ∈ waiting, frame.isPause = true)
    (earlier : ∀ scope ∈ kept, scope.Before bound)
    (scopes : state.scopes.Over kept bound (inner.countP Frame.closes + 1))
    (global :
      ∀ closure,
        state.control.calledFunction? = some closure →
        closure.scope = Scopes.globalId) :
    state.step.Sheltered floor kept bound := by
  have scoping := state.scoping_step
  generalize state.step = next at scoping
  cases scoping with
  | keeps taken onward =>
      obtain ⟨sameScopes, left, isStack, sameCount⟩ := exists_inner taken stack
      rw [← sameScopes, ← sameCount] at scopes
      exact of_sameScopes onward isStack pauses earlier scopes
  | opens taken onward =>
      obtain ⟨sameScopes, left, isStack, sameCount⟩ := exists_inner taken stack
      rw [← sameScopes, ← sameCount] at scopes
      have opened := scopes.push (Nat.succ_pos _)
      have grown :
          .openScope :: _ = (.openScope :: left) ++ .activation depth :: (waiting ++ floor) :=
        congrArg (Frame.openScope :: ·) isStack
      refine of_sameScopes onward grown pauses earlier ?_
      rw [List.countP_cons_of_pos rfl]
      exact opened
  | @enters closure arguments line next asked shallow isOpen grown pushed =>
      have inGlobal := global closure (by rw [asked]; rfl)
      have whole :
          next.stack =
            (.activation state.depth :: inner) ++ .activation depth :: (waiting ++ floor) := by
        rw [grown, stack]
        rfl
      refine .entered whole pauses ?_
      rw [pushed, List.countP_cons_of_pos rfl]
      exact scopes.pushUnder (.inl inGlobal)
  | closes top shrunk popped =>
      rw [stack] at top
      cases inner with
      | nil => cases (List.cons.inj top).1
      | cons first left =>
          obtain ⟨rfl, rfl⟩ := List.cons.inj top
          rw [List.countP_cons_of_pos rfl] at scopes
          refine .entered shrunk pauses ?_
          rw [popped]
          exact scopes.pop
  | leaves top shrunk popped depth answers =>
      rw [stack] at top
      cases inner with
      | nil =>
          obtain ⟨_, rfl⟩ := List.cons.inj top
          refine .calling shrunk pauses (Control.isCalling_of_isAnswer answers) ?_
          rw [popped]
          exact scopes.pop
      | cons first left =>
          obtain ⟨rfl, rfl⟩ := List.cons.inj top
          rw [List.countP_cons_of_pos rfl] at scopes
          refine .entered shrunk pauses ?_
          rw [popped]
          exact scopes.pop

end Entered

/-- Until a call ends, no step touches the scopes of its caller. -/
theorem step
    (sheltered : state.Sheltered floor kept bound)
    (earlier : ∀ scope ∈ kept, scope.Before bound)
    (global :
      ∀ closure,
        state.control.calledFunction? = some closure →
        closure.scope = Scopes.globalId)
    (lasts : ¬ state.Ends floor) :
    state.step.Sheltered floor kept bound := by
  cases sheltered with
  | calling stack pauses calls scopes => exact step_calling stack pauses calls scopes global lasts
  | entered stack pauses scopes => exact step_entered stack pauses earlier scopes global

theorem attach
    (sheltered : state.Sheltered floor kept bound)
    (host : Host) :
    (state.attach host).Sheltered floor kept bound := by
  cases sheltered with
  | calling stack pauses calls scopes => exact .calling stack pauses calls scopes
  | entered stack pauses scopes => exact .entered stack pauses scopes

theorem wake
    (sheltered : state.Sheltered floor kept bound)
    (host : Host) :
    (state.wake host).Sheltered floor kept bound := by
  cases sheltered with
  | calling stack pauses calls scopes => exact .calling stack pauses rfl scopes
  | entered stack pauses scopes => exact .entered stack pauses scopes

end State.Sheltered

end LedSketch.Machine
