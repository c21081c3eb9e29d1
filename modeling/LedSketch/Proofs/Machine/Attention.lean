import LedSketch.Proofs.Machine.Clicks
import LedSketch.Proofs.Machine.Stale

namespace LedSketch.Machine

/-!
# Attention to clicks

A run that wakes up gets to the click queue before it rests again.  It leaves the queue
only when no click waits, or for the end of the run.
-/

open Script

namespace State

/-- Whether the run gets to the click queue, or to its end, before it can rest. -/
def headsForClicks (state : State) : Bool :=
  match state.control with
  | .value _ =>
      match state.stack with
      | frame :: _ => frame.isResting
      | [] => false
  | .loopTop _ => true
  | .dispatch => true
  | .raise _ => true
  | .halted _ => true
  | _ => false

/-- A click waits only while the run handles clicks or is on its way to them. -/
def Attentive (state : State) : Prop :=
  state.world.host.clicks.waiting = [] ∨
    state.dispatching = true ∨
      state.headsForClicks = true

theorem headsForClicks_of_raise
    {state : State}
    {interrupt : Interrupt}
    (raised : state.control = .raise interrupt) :
    state.headsForClicks = true := by
  rw [headsForClicks, raised]

theorem headsForClicks_of_value
    {state : State}
    {value : Value}
    {frame : Frame}
    {rest : List Frame}
    (given : state.control = .value value)
    (top : state.stack = frame :: rest) :
    state.headsForClicks = frame.isResting := by
  rw [headsForClicks, given]
  dsimp only
  rw [top]

end State

/-- The handling of clicks ends when none waits, or with an interrupt. -/
theorem Transition.attentive_of_dispatching
    {state next : State}
    (transition : Transition state next)
    (dispatching : state.dispatching = true) :
    next.Attentive := by
  cases transition with
  | work plain onward | native plain effects onward | take plain top plainFrame onward =>
      exact .inr (.inl (onward.dispatching.trans dispatching))
  | clicksDone selecting nothing =>
      left
      unfold ClickQueue.take? at nothing
      split at nothing
      · next empty => exact empty
      · contradiction
  | clickStale | delayStale | loopStale => exact .inr (.inr rfl)
  | handlerFails raised top => exact .inr (.inr (State.headsForClicks_of_raise raised))
  | dispatchBegins => exact .inr (.inl rfl)
  | _ => exact .inr (.inl dispatching)

namespace State

variable {state : State}

/-- On its way to the clicks a run does not turn aside. -/
theorem attentive_step_of_headsForClicks
    (idle : state.dispatching = false)
    (heads : state.headsForClicks = true) :
    state.step.Attentive := by
  cases control : state.control with
  | value value =>
      cases top : state.stack with
      | nil =>
          rw [headsForClicks, control] at heads
          dsimp only at heads
          rw [top] at heads
          contradiction
      | cons frame rest =>
          rw [headsForClicks_of_value control top] at heads
          rw [step_of_value control top]
          cases frame with
          | delayEnd line =>
              unfold stepValue
              dsimp only
              split <;> exact .inr (.inr rfl)
          | iterationEnd main => exact .inr (.inr rfl)
          | _ => contradiction
  | loopTop main =>
      have stepped : state.step = state.stepLoopTop main := by rw [step, control]
      rw [stepped]
      unfold stepLoopTop
      split
      · split <;> exact .inr (.inr rfl)
      · exact .inr (.inr rfl)
  | dispatch =>
      have stepped : state.step = state.stepDispatch := by rw [step, control]
      rw [stepped, stepDispatch, idle]
      exact .inr (.inl rfl)
  | raise interrupt =>
      right
      right
      cases top : state.stack with
      | nil =>
          rw [step, control]
          dsimp only
          rw [top]
          rfl
      | cons frame rest =>
          obtain ⟨sameControl, others⟩ := (state.popped rest).stepRaise_keeps frame
          rw [step_of_raise control top]
          exact headsForClicks_of_raise (sameControl.trans control)
  | halted outcome =>
      have stays : state.step = state := by rw [step, control]
      rw [stays]
      exact .inr (.inr heads)
  | _ =>
      rw [headsForClicks, control] at heads
      contradiction

theorem attentive_step (attentive : state.Attentive) : state.step.Attentive := by
  cases dispatching : state.dispatching with
  | true => exact state.transition_step.attentive_of_dispatching dispatching
  | false =>
      obtain empty | busy | heads := attentive
      · -- Nothing but a press puts a click into the queue.
        have front := state.waiting_step
        rw [empty] at front
        exact .inl (List.append_eq_nil_iff.mp front.symm).2
      · rw [dispatching] at busy
        contradiction
      · exact attentive_step_of_headsForClicks dispatching heads

theorem attentive_advance
    (attentive : state.Attentive)
    (steps : Nat) :
    (state.advance steps).Attentive := by
  induction steps generalizing state with
  | zero => exact attentive
  | succ steps inductionHypothesis =>
      unfold advance
      split
      · exact attentive
      · exact inductionHypothesis (attentive_step attentive)

/-- A run that wakes up is on its way to the clicks. -/
theorem attentive_wake
    {frame : Frame}
    {rest : List Frame}
    (top : state.stack = frame :: rest)
    (rests : frame.isResting = true)
    (host : Host) :
    (state.wake host).Attentive := by
  have given : (state.wake host).control = .value .undefined := rfl
  exact .inr (.inr ((headsForClicks_of_value given top).trans rests))

/-- An attentive run without a handler in progress leaves no click when it rests. -/
theorem waiting_of_attentive
    (attentive : state.Attentive)
    (balanced : state.Balanced)
    (resting : state.control = .suspended)
    (noHandler : state.handlers = 0) :
    state.world.host.clicks.waiting = [] := by
  obtain empty | busy | heads := attentive
  · exact empty
  · unfold Balanced at balanced
    rw [resting, noHandler, busy] at balanced
    contradiction
  · rw [headsForClicks, resting] at heads
    contradiction

end State

end LedSketch.Machine
