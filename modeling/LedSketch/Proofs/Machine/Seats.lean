import LedSketch.Proofs.Machine.Stale

namespace LedSketch.Machine

/-!
# Seats

What the sequence of the top level, `setup` and the calls of `loop` waits for is the
lowest frame of the stack.  Everything above it belongs to the script and its handlers,
and until the script gives it a result, no step concerns the sequence.
-/

open Script

/-- Whether a frame waits on behalf of the sequence of top level, `setup` and `loop`. -/
def Frame.isSeat : Frame → Bool
  | .topLevel => true
  | .setupCall => true
  | .dispatchBeforeLoop _ => true
  | .loopCall _ => true
  | .iterationEnd _ => true
  | _ => false

/-- Whether a control belongs to that sequence. -/
def Control.isSeat : Control → Bool
  | .findSetup => true
  | .findLoop => true
  | .loopTop _ => true
  | .halted _ => true
  | _ => false

/-- Whether a control gives a result to the frame on top of the stack. -/
def Control.isResult : Control → Bool
  | .value _ => true
  | .flow _ => true
  | .raise _ => true
  | _ => false

theorem Frame.isSeat_of_isPlain
    {frame : Frame}
    (plain : frame.isPlain = true) :
    frame.isSeat = false := by
  cases frame <;> first | rfl | contradiction

theorem Control.isSeat_of_isPlain
    {control : Control}
    (plain : control.isPlain = true) :
    control.isSeat = false := by
  cases control <;> first | rfl | contradiction

/-- What a run passes on its way from the top level to its last call of `loop`. -/
inductive Milestone where
  | programEnded
  | setupCalled (setup : Value)
  | setupMissing
  | setupReturned
  | loopFound (main : Value)
  | loopMissing
  | loopCalled (main : Value)
  | loopReturned

/-- The milestone that a run passes with its next step. -/
def State.milestone? (state : State) : Option Milestone :=
  match state.control, state.stack with
  | .flow .normal, .topLevel :: _ => some .programEnded
  | .findSetup, _ =>
      match state.entryPoint? "setup" with
      | some setup => some (.setupCalled setup)
      | none => some .setupMissing
  | .value _, .setupCall :: _ => some .setupReturned
  | .findLoop, _ =>
      match state.entryPoint? "loop" with
      | some main => some (.loopFound main)
      | none => some .loopMissing
  | .value _, .dispatchBeforeLoop main :: _ => some (.loopCalled main)
  | .value _, .loopCall _ :: _ => some .loopReturned
  | _, _ => none

/-- What the step does that passes a milestone. -/
def Milestone.Passed
    (state : State) :
    Milestone → Prop
  | .programEnded => state.step.control = .findSetup
  | .setupCalled setup =>
      state.entryPoint? "setup" = some setup ∧ state.step.control = .call setup [] 0
  | .setupMissing => state.entryPoint? "setup" = none
  | .setupReturned => state.step.control = .findLoop
  | .loopFound main => state.entryPoint? "loop" = some main
  | .loopMissing => state.entryPoint? "loop" = none
  | .loopCalled main => state.step.control = .call main [] 0
  | .loopReturned => state.step.iterations = state.iterations + 1

/-- The run is at work for a frame at the bottom of the stack. -/
structure Seated (seat : Frame) (state : State) : Prop where
  isSeat : seat.isSeat = true
  stack :
    ∃ above,
      state.stack = above ++ [seat] ∧ ∀ frame ∈ above, frame.isSeat = false
  control : state.control.isSeat = false

namespace Seated

variable {seat : Frame} {state next : State}

/-- A frame on top of the stack is the seat itself, or lies above it. -/
theorem top_cases
    {frame : Frame}
    {rest : List Frame}
    (seated : Seated seat state)
    (top : state.stack = frame :: rest) :
    (frame = seat ∧ state.stack = [seat]) ∨
      frame.isSeat = false ∧
        ∃ above, rest = above ++ [seat] ∧ ∀ other ∈ above, other.isSeat = false := by
  obtain ⟨above, whole, nested⟩ := seated.stack
  cases above with
  | nil =>
      rw [whole] at top
      exact .inl ⟨(List.cons.inj top).1.symm, whole⟩
  | cons first above =>
      rw [whole] at top
      obtain ⟨rfl, others⟩ := List.cons.inj top
      obtain ⟨nestedFirst, nestedOthers⟩ := List.forall_mem_cons.mp nested
      exact .inr ⟨nestedFirst, above, others.symm, nestedOthers⟩

/-- More frames of the script lie above the seat. -/
theorem of_pushed
    {rest pushed : List Frame}
    (isSeat : seat.isSeat = true)
    (below : ∃ above, rest = above ++ [seat] ∧ ∀ other ∈ above, other.isSeat = false)
    (grown : next.stack = pushed ++ rest)
    (nestedPushed : ∀ frame ∈ pushed, frame.isSeat = false)
    (control : next.control.isSeat = false) :
    Seated seat next := by
  obtain ⟨above, rfl, nested⟩ := below
  refine ⟨isSeat, ⟨pushed ++ above, ?_, ?_⟩, control⟩
  · rw [grown, List.append_assoc]
  · exact List.forall_mem_append.mpr ⟨nestedPushed, nested⟩

theorem notSeat
    {control : Control}
    (seated : Seated seat state)
    (same : state.control = control) :
    control.isSeat = false :=
  same ▸ seated.control

/-- While the seat is not given a result, what is on top of the stack lies above it. -/
theorem above
    {control : Control}
    {frame : Frame}
    {rest : List Frame}
    (seated : Seated seat state)
    (working : state.stack ≠ [seat] ∨ state.control.isResult = false)
    (same : state.control = control)
    (isResult : control.isResult = true)
    (top : state.stack = frame :: rest) :
    frame.isSeat = false ∧
      ∃ above, rest = above ++ [seat] ∧ ∀ other ∈ above, other.isSeat = false := by
  obtain ⟨isTop, alone⟩ | nested := seated.top_cases top
  · rw [same, isResult] at working
    obtain notAlone | noResult := working
    · exact (notAlone alone).elim
    · contradiction
  · exact nested

/-- Until the seat is given a result, the run stays at work for it. -/
theorem of_transition
    (seated : Seated seat state)
    (transition : Transition state next)
    (working : state.stack ≠ [seat] ∨ state.control.isResult = false) :
    Seated seat next ∧ next.iterations = state.iterations ∧ next.limit = state.limit := by
  have isSeat := seated.isSeat
  have notEmpty (empty : state.stack = []) : False := by
    obtain ⟨nested, whole, others⟩ := seated.stack
    rw [empty] at whole
    exact List.append_ne_nil_of_right_ne_nil nested (List.cons_ne_nil _ _) whole.symm
  have nothing : ∀ frame ∈ ([] : List Frame), frame.isSeat = false := by simp
  cases transition with
  | rest paused => exact ⟨seated, rfl, rfl⟩
  | work plain onward | native plain effects onward =>
      obtain ⟨pushed, grown, plainPushed⟩ := onward.stack
      refine ⟨.of_pushed isSeat seated.stack grown ?_ ?_, onward.iterations, onward.limit⟩
      · exact fun frame member => Frame.isSeat_of_isPlain (plainPushed frame member)
      · exact Control.isSeat_of_isPlain onward.control
  | take plain top plainFrame onward =>
      obtain ⟨rfl, alone⟩ | ⟨nested, below⟩ := seated.top_cases top
      · cases (Frame.isSeat_of_isPlain plainFrame).symm.trans isSeat
      · obtain ⟨pushed, grown, plainPushed⟩ := onward.stack
        refine ⟨.of_pushed isSeat below grown ?_ ?_, onward.iterations, onward.limit⟩
        · exact fun frame member => Frame.isSeat_of_isPlain (plainPushed frame member)
        · exact Control.isSeat_of_isPlain onward.control
  | delay line plain effects =>
      have nested : ∀ frame ∈ [Frame.delayEnd line], frame.isSeat = false := by
        simp [Frame.isSeat]
      refine ⟨.of_pushed isSeat seated.stack ?_ nested rfl, rfl, rfl⟩
      rfl
  | clickHandled selecting =>
      have nested : ∀ frame ∈ [Frame.handlerCall], frame.isSeat = false := by
        simp [Frame.isSeat]
      refine ⟨.of_pushed isSeat seated.stack ?_ nested rfl, rfl, rfl⟩
      rfl
  | unwind scopes depth raised top =>
      have below := (seated.above working raised rfl top).2
      exact ⟨.of_pushed isSeat below rfl nothing (seated.notSeat rfl), rfl, rfl⟩
  | handlerFails raised top =>
      have below := (seated.above working raised rfl top).2
      exact ⟨.of_pushed isSeat below rfl nothing (seated.notSeat rfl), rfl, rfl⟩
  | delayReturns given top | delayStale given top | handlerReturns given top =>
      exact ⟨.of_pushed isSeat (seated.above working given rfl top).2 rfl nothing rfl, rfl, rfl⟩
  | dispatchBusy | dispatchBegins | clicksDone | clickStale =>
      exact ⟨.of_pushed isSeat seated.stack rfl nothing rfl, rfl, rfl⟩
  | clickIgnored =>
      exact ⟨.of_pushed isSeat seated.stack rfl nothing (seated.notSeat rfl), rfl, rfl⟩
  -- A seat on top of the stack is not given a result here.
  | programEnds given top | setupReturns given top | loopCalled given top
  | loopReturns given top | iterationEnds given top => cases (seated.above working given rfl top).1
  | programLeft fault given top => cases (seated.above working given rfl top).1
  | setupFound asked | setupMissing asked | loopFound asked | loopMissing asked
  | iterationBegins asked | iterationsDone asked | loopStale asked => cases seated.notSeat asked
  | finishes plain empty => exact (notEmpty empty).elim
  | fails raised empty => exact (notEmpty empty).elim

/-- Until the seat is given a result, the run passes no milestone. -/
theorem milestone?_eq_none
    (seated : Seated seat state)
    (working : state.stack ≠ [seat] ∨ state.control.isResult = false) :
    state.milestone? = none := by
  unfold State.milestone?
  split
  · next completed top => cases (seated.above working completed rfl top).1
  · next asked => cases seated.notSeat asked
  · next given top => cases (seated.above working given rfl top).1
  · next asked => cases seated.notSeat asked
  · next given top => cases (seated.above working given rfl top).1
  · next given top => cases (seated.above working given rfl top).1
  · rfl

end Seated

/-- With the next step the run stays at work for a seat. -/
structure Stays (seat : Frame) (state : State) : Prop where
  seated : Seated seat state.step
  iterations : state.step.iterations = state.iterations
  limit : state.step.limit = state.limit
  milestone : state.milestone? = none

/-- With the next step an interrupt leaves the last frame. -/
structure Leaves (state : State) : Prop where
  raised : ∃ interrupt, state.step.control = .raise interrupt
  alone : state.step.stack = []
  limit : state.step.limit = state.limit
  milestone : state.milestone? = none

/-- The milestones are what their names say. -/
theorem Milestone.passed
    {state : State}
    {milestone : Milestone}
    (passes : state.milestone? = some milestone) :
    milestone.Passed state := by
  unfold State.milestone? at passes
  split at passes
  · next completed top =>
      cases passes
      exact congrArg State.control (State.step_of_flow completed top)
  · next asks =>
      have stepped : state.step = state.stepFindSetup := by rw [State.step, asks]
      split at passes
      · next setup bound =>
          cases passes
          refine ⟨bound, ?_⟩
          rw [stepped, State.stepFindSetup, bound]
          rfl
      · next unbound =>
          cases passes
          exact unbound
  · next given top =>
      cases passes
      exact congrArg State.control (State.step_of_value given top)
  · split at passes
    · next main bound =>
        cases passes
        exact bound
    · next unbound =>
        cases passes
        exact unbound
  · next given top =>
      cases passes
      exact congrArg State.control (State.step_of_value given top)
  · next given top =>
      cases passes
      exact congrArg State.iterations (State.step_of_value given top)
  · contradiction

namespace Seated

variable {seat : Frame} {state : State}

/-- An interrupt passes a seat. -/
theorem leaves
    {interrupt : Interrupt}
    (seated : Seated seat state)
    (raised : state.control = .raise interrupt)
    (alone : state.stack = [seat]) :
    Leaves state := by
  have isSeat := seated.isSeat
  have noMilestone : state.milestone? = none := by
    unfold State.milestone?
    rw [raised]
  have passed : state.step = state.popped [] := by
    rw [State.step_of_raise raised alone]
    cases seat <;> first | rfl | contradiction
  refine ⟨⟨interrupt, ?_⟩, ?_, ?_, noMilestone⟩
  · rw [passed]
    exact raised
  · rw [passed]
    rfl
  · rw [passed]
    rfl

/-- A result that a seat does not take is passed to it in another form. -/
theorem stays_putBack
    {control : Control}
    (seated : Seated seat state)
    (putBack : state.step = (state.popped []).into seat control)
    (notSeat : control.isSeat = false)
    (noMilestone : state.milestone? = none) :
    Stays seat state := by
  have still : Seated seat state.step := by
    rw [putBack]
    exact ⟨seated.isSeat, ⟨[], rfl, by simp⟩, notSeat⟩
  exact ⟨still, by rw [putBack]; rfl, by rw [putBack]; rfl, noMilestone⟩

theorem stays
    (seated : Seated seat state)
    (working : state.stack ≠ [seat] ∨ state.control.isResult = false) :
    Stays seat state := by
  obtain ⟨still, iterations, limit⟩ := seated.of_transition state.transition_step working
  exact ⟨still, iterations, limit, seated.milestone?_eq_none working⟩

/-- The top level waits for the completion of a statement. -/
theorem topLevel_cases (seated : Seated .topLevel state) :
    Stays .topLevel state ∨ Leaves state ∨
      state.control = .flow .normal ∧ state.stack = [.topLevel] := by
  by_cases alone : state.stack = [.topLevel]
  · cases control : state.control with
    | raise interrupt => exact .inr (.inl (seated.leaves control alone))
    | value value =>
        have noMilestone : state.milestone? = none := by
          unfold State.milestone?
          rw [control, alone]
        exact .inl (seated.stays_putBack (State.step_of_value control alone) rfl
          noMilestone)
    | flow flow =>
        cases flow with
        | normal => exact .inr (.inr ⟨rfl, alone⟩)
        | returned | broke | continued =>
            have noMilestone : state.milestone? = none := by
              unfold State.milestone?
              rw [control]
            have left := State.step_of_flow control alone
            have sameLimit : state.step.limit = state.limit := by
              rw [left]
              rfl
            exact .inr (.inl ⟨⟨_, congrArg State.control left⟩, congrArg State.stack left,
              sameLimit, noMilestone⟩)
    | _ => exact .inl (seated.stays (.inr (by rw [control]; rfl)))
  · exact .inl (seated.stays (.inl alone))

/-- The other seats wait for the value of a call or of the handling of clicks. -/
theorem call_cases
    (seated : Seated seat state)
    (notTop : seat ≠ .topLevel) :
    Stays seat state ∨ Leaves state ∨
      ∃ value, state.control = .value value ∧ state.stack = [seat] := by
  by_cases alone : state.stack = [seat]
  · cases control : state.control with
    | raise interrupt => exact .inr (.inl (seated.leaves control alone))
    | value value => exact .inr (.inr ⟨value, rfl, alone⟩)
    | flow flow =>
        have isSeat := seated.isSeat
        have putBack : state.step = (state.popped []).into seat (.value flow.value) := by
          rw [State.step_of_flow control alone]
          cases seat <;> first | rfl | contradiction
        have noMilestone : state.milestone? = none := by
          unfold State.milestone?
          rw [control, alone]
          cases flow <;> cases seat <;> first | rfl | contradiction
        exact .inl (seated.stays_putBack putBack rfl noMilestone)
    | _ => exact .inl (seated.stays (.inr (by rw [control]; rfl)))
  · exact .inl (seated.stays (.inl alone))

end Seated

end LedSketch.Machine
