import LedSketch.Proofs.Machine.Transition
import LedSketch.Simulation.Run

namespace LedSketch.Machine

/-!
# Stale runs

A run that is no longer current does nothing to its host.  If it was at rest, it
leaves everything that is open and ends as superseded; if it begins only now, it
never comes to the places where clicks are taken.
-/

open Script

/-- Whether a frame takes clicks when it gets its value. -/
def Frame.takesClicks : Frame → Bool
  | .handlerCall => true
  | .dispatchBeforeLoop _ => true
  | _ => false

/-- Whether a control takes clicks or is about to. -/
def Control.takesClicks : Control → Bool
  | .dispatch => true
  | .nextClick => true
  | _ => false

/-- Whether a run can be at rest under a frame. -/
def Frame.isResting : Frame → Bool
  | .delayEnd _ => true
  | .iterationEnd _ => true
  | _ => false

/-- A frame of the evaluation takes no click. -/
theorem Frame.takesClicks_of_isPlain
    {frame : Frame}
    (plain : frame.isPlain = true) :
    frame.takesClicks = false := by
  cases frame <;> first | rfl | contradiction

/-- The evaluation takes no click. -/
theorem Control.takesClicks_of_isPlain
    {control : Control}
    (plain : control.isPlain = true) :
    control.takesClicks = false := by
  cases control <;> first | rfl | contradiction

/-- A state with no way to the click queue but through a delay or a new iteration. -/
structure Aloof (state : State) : Prop where
  control : state.control.takesClicks = false
  stack : ∀ frame ∈ state.stack, frame.takesClicks = false

namespace Aloof

variable {state next : State}

/-- The evaluation stays aloof. -/
theorem of_local
    (aloof : ∀ frame ∈ state.stack, frame.takesClicks = false)
    (onward : Local state next) :
    Aloof next := by
  refine ⟨Control.takesClicks_of_isPlain onward.control, ?_⟩
  obtain ⟨pushed, grown, plain⟩ := onward.stack
  intro frame member
  rw [grown] at member
  rcases List.mem_append.mp member with inPushed | inStack
  · exact Frame.takesClicks_of_isPlain (plain frame inPushed)
  · exact aloof frame inStack

/-- What is below the top takes no click. -/
theorem tail
    {frame : Frame}
    {rest : List Frame}
    (aloof : Aloof state)
    (top : state.stack = frame :: rest) :
    ∀ other ∈ rest, other.takesClicks = false := by
  intro other member
  apply aloof.stack other
  rw [top]
  exact List.mem_cons_of_mem frame member

/-- What is on top takes no click. -/
theorem head
    {frame : Frame}
    {rest : List Frame}
    (aloof : Aloof state)
    (top : state.stack = frame :: rest) :
    frame.takesClicks = false := by
  apply aloof.stack frame
  rw [top]
  exact List.mem_cons_self

theorem cons
    {frame : Frame}
    {rest : List Frame}
    (first : frame.takesClicks = false)
    (others : ∀ other ∈ rest, other.takesClicks = false) :
    ∀ other ∈ frame :: rest, other.takesClicks = false :=
  List.forall_mem_cons.mpr ⟨first, others⟩

end Aloof

/-- An aloof stale run stays aloof and leaves its host as it is. -/
theorem Transition.aloof_of_stale
    {state next : State}
    (transition : Transition state next)
    (stale : state.live = false)
    (aloof : Aloof state) :
    Aloof next ∧ next.world.host = state.world.host := by
  have notTaking {control : Control}
      (same : state.control = control) :
      control.takesClicks = false := by
    rw [← same]
    exact aloof.control
  have notLive (live : state.live = true) : False := by
    rw [live] at stale
    contradiction
  cases transition with
  | rest paused => exact ⟨aloof, rfl⟩
  | work plain onward => exact ⟨.of_local aloof.stack onward, onward.host⟩
  | take plain top plainFrame onward =>
      exact ⟨.of_local (aloof.tail top) onward, onward.host⟩
  | unwind scopes depth raised top other => exact ⟨⟨aloof.control, aloof.tail top⟩, rfl⟩
  | @native world next plain effects onward =>
      have inWorld : ∀ frame ∈ (state.withWorld world).stack, frame.takesClicks = false :=
        aloof.stack
      exact ⟨.of_local inWorld onward, onward.host.trans (effects.host_eq_of_stale stale)⟩
  | delay line plain effects =>
      exact ⟨⟨rfl, Aloof.cons rfl aloof.stack⟩, effects.host_eq_of_stale stale⟩
  | delayStale given top => exact ⟨⟨rfl, aloof.tail top⟩, rfl⟩
  | programEnds completed top | programLeft fault completed top =>
      exact ⟨⟨rfl, aloof.tail top⟩, rfl⟩
  | setupFound => exact ⟨⟨rfl, Aloof.cons rfl aloof.stack⟩, rfl⟩
  | setupMissing | loopFound | loopMissing | loopStale | finishes | fails =>
      exact ⟨⟨rfl, aloof.stack⟩, rfl⟩
  | setupReturns given top => exact ⟨⟨rfl, aloof.tail top⟩, rfl⟩
  | loopReturns given top => exact ⟨⟨rfl, Aloof.cons rfl (aloof.tail top)⟩, rfl⟩
  | iterationEnds given top => exact ⟨⟨rfl, aloof.tail top⟩, rfl⟩
  -- Only the current run gets to a place where clicks are taken.
  | delayReturns given top live => exact (notLive live).elim
  | iterationBegins asked live => exact (notLive live).elim
  | iterationsDone asked live => exact (notLive live).elim
  | dispatchBusy asked | dispatchBegins asked => cases notTaking asked
  | clicksDone selecting | clickIgnored selecting | clickHandled selecting
  | clickStale selecting => cases notTaking selecting
  | handlerReturns given top => cases aloof.head top
  | handlerFails raised top => cases aloof.head top
  | loopCalled given top => cases aloof.head top

/-- A paused state that waits for its next poll has a frame to wait under. -/
def State.IsRestable (state : State) : Prop :=
  state.control = .suspended →
    ∃ frame rest, state.stack = frame :: rest ∧ frame.isResting = true

/-- A run comes to rest only after a delay or after a call of `loop`. -/
theorem Transition.isRestable
    {state next : State}
    (transition : Transition state next)
    (restable : state.IsRestable) :
    next.IsRestable := by
  have ofPlain (plain : next.control.isPlain = true) : next.IsRestable := by
    intro suspended
    rw [suspended] at plain
    contradiction
  cases transition with
  | rest paused => exact restable
  | work plain onward => exact ofPlain onward.control
  | take plain top plainFrame onward => exact ofPlain onward.control
  | native plain effects onward => exact ofPlain onward.control
  | delay line plain effects => exact fun _ => ⟨.delayEnd line, state.stack, rfl, rfl⟩
  | @loopReturns main value rest given top =>
      exact fun _ => ⟨.iterationEnd main, rest, rfl, rfl⟩
  | unwind scopes depth raised top other =>
      intro suspended
      cases raised.symm.trans suspended
  | handlerFails raised top =>
      intro suspended
      cases raised.symm.trans suspended
  | clickIgnored selecting taken unhandled =>
      intro suspended
      cases selecting.symm.trans suspended
  | _ => exact fun suspended => nomatch suspended

namespace State

/-- A run that does not rest makes its steps one by one. -/
theorem advance_succ
    {state : State}
    (running : state.paused = false)
    (steps : Nat) :
    state.advance (steps + 1) = state.step.advance steps := by
  rw [advance, running]
  rfl

/-- A run that rests makes no step. -/
theorem advance_of_paused
    {state : State}
    (paused : state.paused = true)
    (steps : Nat) :
    state.advance steps = state := by
  cases steps with
  | zero => rfl
  | succ steps => rw [advance, if_pos paused]

/-- Steps can be made in two parts. -/
theorem advance_add
    (state : State)
    (first second : Nat) :
    state.advance (first + second) = (state.advance first).advance second := by
  induction first generalizing state with
  | zero => rw [Nat.zero_add, advance]
  | succ first inductionHypothesis =>
      rw [Nat.succ_add, Nat.succ_eq_add_one]
      cases paused : state.paused with
      | true => rw [advance_of_paused paused, advance_of_paused paused, advance_of_paused paused]
      | false => rw [advance_succ paused, advance_succ paused, inductionHypothesis]

/-- After some steps a run can rest as before. -/
theorem isRestable_advance
    {state : State}
    (restable : state.IsRestable)
    (steps : Nat) :
    (state.advance steps).IsRestable := by
  induction steps generalizing state with
  | zero => exact restable
  | succ steps inductionHypothesis =>
      unfold advance
      split
      · exact restable
      · exact inductionHypothesis (state.transition_step.isRestable restable)

/-- The steps of a stale run leave the host as it is. -/
theorem host_advance_of_stale
    {state : State}
    (stale : state.live = false)
    (aloof : Aloof state)
    (steps : Nat) :
    (state.advance steps).world.host = state.world.host := by
  induction steps generalizing state with
  | zero => rfl
  | succ steps inductionHypothesis =>
      unfold advance
      split
      · rfl
      · obtain ⟨stillAloof, sameHost⟩ := state.transition_step.aloof_of_stale stale aloof
        have stillStale : state.step.live = false := by
          rw [live, sameHost]
          exact stale
        exact (inductionHypothesis stillStale stillAloof).trans sameHost

/-- Passing a frame, an interrupt changes neither itself nor the world. -/
theorem stepRaise_keeps
    (state : State)
    (frame : Frame) :
    (state.stepRaise frame).control = state.control ∧
      (state.stepRaise frame).stack = state.stack ∧
      (state.stepRaise frame).world = state.world := by
  cases frame <;> exact ⟨rfl, rfl, rfl⟩

/-- An interrupt passes every frame and ends the run. -/
theorem advance_of_raise
    {state : State}
    {interrupt : Interrupt}
    (raised : state.control = .raise interrupt)
    (spare : Nat) :
    (state.advance (spare + state.stack.length + 1)).control =
        .halted (.ofInterrupt interrupt) ∧
      (state.advance (spare + state.stack.length + 1)).world = state.world := by
  -- Each step takes one frame away, so the recursion is on the height of the stack.
  have running : state.paused = false := by rw [paused, raised]
  rw [advance_succ running]
  cases top : state.stack with
  | nil =>
      have stepped : state.step = state.goto (.halted (.ofInterrupt interrupt)) := by
        rw [step, raised]
        dsimp only
        rw [top]
      rw [stepped]
      cases spare <;> exact ⟨rfl, rfl⟩
  | cons frame rest =>
      have stepped := step_of_raise raised top
      obtain ⟨sameControl, sameStack, sameWorld⟩ := (state.popped rest).stepRaise_keeps frame
      rw [← stepped] at sameControl sameStack sameWorld
      have shorter : state.step.stack.length < state.stack.length := by
        rw [sameStack, top]
        exact Nat.lt_succ_self _
      have stillRaised : state.step.control = .raise interrupt := sameControl.trans raised
      obtain ⟨halted, untouched⟩ := advance_of_raise stillRaised spare
      have passed : spare + (frame :: rest).length = spare + state.step.stack.length + 1 := by
        rw [sameStack]
        rfl
      rw [passed]
      exact ⟨halted, untouched.trans sameWorld⟩
termination_by state.stack.length

/-- A run that wakes up stale leaves everything that is open, and does nothing else. -/
theorem goOn_wake_of_stale
    {state : State}
    {frame : Frame}
    {rest : List Frame}
    {host : Host}
    (config : Config)
    (top : state.stack = frame :: rest)
    (resting : frame.isResting = true)
    (stale : host.live = false) :
    ((state.wake host).goOn config).control = .halted .superseded ∧
      ((state.wake host).goOn config).world.host = host := by
  have leave {woken : State}
      (raised : woken.control = .raise .superseded)
      (sameStack : woken.stack = rest)
      (sameHost : woken.world.host = host)
      (spare : Nat) :
      (woken.advance (spare + rest.length + 1)).control = .halted .superseded ∧
        (woken.advance (spare + rest.length + 1)).world.host = host := by
    obtain ⟨halted, untouched⟩ := advance_of_raise raised spare
    rw [sameStack] at halted untouched
    exact ⟨halted, by rw [untouched, sameHost]⟩
  have allowance :
      config.stepBudget + (state.wake host).stack.length + 2 =
        config.stepBudget + 1 + rest.length + 1 + 1 := by
    change config.stepBudget + state.stack.length + 2 = _
    rw [top, List.length_cons]
    omega
  have given : (state.wake host).control = .value .undefined := rfl
  have wokenTop : (state.wake host).stack = frame :: rest := top
  have notLive : ¬host.live = true := by
    rw [stale]
    exact Bool.false_ne_true
  unfold goOn
  rw [allowance, advance_succ rfl]
  -- Under a delay the first step finds the run stale, under an iteration the second.
  cases frame with
  | delayEnd line =>
      have stepped : (state.wake host).step =
          ((state.wake host).popped rest).stop .superseded :=
        (step_of_value given wokenTop).trans (if_neg notLive)
      rw [stepped]
      exact leave rfl rfl rfl (config.stepBudget + 1)
  | iterationEnd main =>
      have stepped : (state.wake host).step =
          ((state.wake host).popped rest).goto (.loopTop main) :=
        step_of_value given wokenTop
      have steppedAgain : (((state.wake host).popped rest).goto (.loopTop main)).step =
          ((state.wake host).popped rest).stop .superseded :=
        if_neg notLive
      have shorter : config.stepBudget + 1 + rest.length + 1 =
          config.stepBudget + rest.length + 1 + 1 := by
        omega
      rw [stepped, shorter, advance_succ rfl, steppedAgain]
      exact leave rfl rfl rfl config.stepBudget
  | _ => contradiction

end State

end LedSketch.Machine
