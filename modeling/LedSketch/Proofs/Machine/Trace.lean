import LedSketch.Proofs.Machine.Clicks
import LedSketch.Simulation.Run

namespace LedSketch.Machine

/-!
# Traces

A trace is the list of the states in which a run makes its steps.  It goes on from the
result of each step, and where the run rests, from the state in which it wakes up.
-/

namespace State

/-- The states in which a run makes its steps until it is paused, but at most so many. -/
def visited : Nat → State → List State
  | 0, _ => []
  | steps + 1, state => if state.paused then [] else state :: visited steps state.step

variable {state : State}

theorem visited_of_paused
    (paused : state.paused = true)
    (steps : Nat) :
    visited steps state = [] ∧ state.advance steps = state := by
  cases steps with
  | zero => exact ⟨rfl, rfl⟩
  | succ steps =>
      unfold visited advance
      rw [paused]
      exact ⟨rfl, rfl⟩

theorem visited_of_running
    (running : state.paused = false)
    (steps : Nat) :
    visited (steps + 1) state = state :: visited steps state.step ∧
      state.advance (steps + 1) = state.step.advance steps := by
  rw [visited, advance, running]
  exact ⟨rfl, rfl⟩

theorem live_of_visited
    (live : state.live = true)
    (steps : Nat) :
    ∀ reached ∈ visited steps state, reached.live = true := by
  induction steps generalizing state with
  | zero => simp [visited]
  | succ steps inductionHypothesis =>
      cases paused : state.paused with
      | true =>
          rw [(visited_of_paused paused _).1]
          simp
      | false =>
          rw [(visited_of_running paused _).1]
          exact List.forall_mem_cons.mpr
            ⟨live, inductionHypothesis ((step_live state).trans live)⟩

/-- What the visited states take, one after the other, is the front of the queue. -/
theorem waiting_advance
    (state : State)
    (steps : Nat) :
    state.world.host.clicks.waiting =
      ((visited steps state).filterMap taken?).map Prod.fst ++
        (state.advance steps).world.host.clicks.waiting := by
  induction steps generalizing state with
  | zero => rfl
  | succ steps inductionHypothesis =>
      cases paused : state.paused with
      | true =>
          obtain ⟨none, same⟩ := visited_of_paused paused (steps + 1)
          rw [none, same]
          rfl
      | false =>
          obtain ⟨first, onward⟩ := visited_of_running paused steps
          rw [first, onward, waiting_step, inductionHypothesis]
          cases taken : state.taken? with
          | none =>
              rw [List.filterMap_cons_none taken]
              rfl
          | some press =>
              rw [List.filterMap_cons_some taken]
              rfl

/-- While a run is current, the handlers begun are those of the presses taken. -/
theorem filterMap_invoked?
    {states : List State}
    (live : ∀ state ∈ states, state.live = true) :
    states.filterMap invoked? = (states.filterMap taken?).filterMap Prod.snd := by
  induction states with
  | nil => rfl
  | cons state later inductionHypothesis =>
      obtain ⟨liveFirst, liveLater⟩ := List.forall_mem_cons.mp live
      have same := inductionHypothesis liveLater
      have invoked := invoked?_eq liveFirst
      cases taken : state.taken? with
      | none =>
          rw [taken] at invoked
          rw [List.filterMap_cons_none taken, List.filterMap_cons_none invoked, same]
      | some press =>
          rw [taken] at invoked
          rw [List.filterMap_cons_some taken]
          cases handled : press.2 with
          | none =>
              rw [List.filterMap_cons_none (invoked.trans handled),
                List.filterMap_cons_none handled, same]
          | some handler =>
              rw [List.filterMap_cons_some (invoked.trans handled),
                List.filterMap_cons_some handled, same]

end State

/-- The states visited on the way from one state to another. -/
inductive Trace : State → List State → State → Prop where
  | nil (state : State) :
      Trace state [] state
  | step
      {state final : State}
      {later : List State}
      (onward : Trace state.step later final) :
      Trace state (state :: later) final
  /-- A poll goes on where the run rests. -/
  | wake
      {state final : State}
      {later : List State}
      (host : Host)
      (resting : state.control = .suspended)
      (onward : Trace (state.wake host) later final) :
      Trace state later final

namespace Trace

variable {initial middle final : State} {earlier later : List State}

theorem append
    (first : Trace initial earlier middle)
    (second : Trace middle later final) :
    Trace initial (earlier ++ later) final := by
  induction first with
  | nil state => exact second
  | step onward inductionHypothesis => exact .step (inductionHypothesis second)
  | wake host resting onward inductionHypothesis =>
      exact .wake host resting (inductionHypothesis second)

/-- A trace leads to each of its states and goes on from there. -/
theorem split
    (trace : Trace initial (earlier ++ middle :: later) final) :
    Trace initial earlier middle ∧ Trace middle (middle :: later) final := by
  -- The list must be a variable for the induction, which then splits it in front.
  generalize whole : earlier ++ middle :: later = states at trace
  induction trace generalizing earlier with
  | nil state => simp at whole
  | @step state final states onward inductionHypothesis =>
      cases earlier with
      | nil =>
          obtain ⟨rfl, rfl⟩ := List.cons.inj whole
          exact ⟨.nil _, .step onward⟩
      | cons first earlier =>
          obtain ⟨rfl, rest⟩ := List.cons.inj whole
          obtain ⟨before, after⟩ := inductionHypothesis rest
          exact ⟨.step before, after⟩
  | wake host resting onward inductionHypothesis =>
      obtain ⟨before, after⟩ := inductionHypothesis whole
      exact ⟨.wake host resting before, after⟩

theorem of_advance
    (state : State)
    (steps : Nat) :
    Trace state (State.visited steps state) (state.advance steps) := by
  induction steps generalizing state with
  | zero => exact .nil state
  | succ steps inductionHypothesis =>
      cases paused : state.paused with
      | true =>
          obtain ⟨none, same⟩ := State.visited_of_paused paused (steps + 1)
          rw [none, same]
          exact .nil state
      | false =>
          obtain ⟨first, onward⟩ := State.visited_of_running paused steps
          rw [first, onward]
          exact .step (inductionHypothesis state.step)

theorem balanced
    (trace : Trace initial later final)
    (balanced : initial.Balanced) :
    (∀ state ∈ later, state.Balanced) ∧ final.Balanced := by
  induction trace with
  | nil state => exact ⟨by simp, balanced⟩
  | @step state final later onward inductionHypothesis =>
      obtain ⟨all, last⟩ := inductionHypothesis (state.transition_step.balanced balanced)
      exact ⟨List.forall_mem_cons.mpr ⟨balanced, all⟩, last⟩
  | wake host resting onward inductionHypothesis =>
      exact inductionHypothesis
        (balanced.of_same (by rw [resting]; rfl) rfl rfl rfl)

/-- Interrupted frames lie below their handler until one of the states completes it. -/
theorem interrupted
    {above interrupted : List Frame}
    (trace : Trace initial later final)
    (inProgress : initial.stack = above ++ .handlerCall :: interrupted) :
    (∃ state ∈ later, state.CompletesHandler interrupted) ∨
      ∃ stillAbove, final.stack = stillAbove ++ .handlerCall :: interrupted := by
  induction trace generalizing above with
  | nil state => exact .inr ⟨above, inProgress⟩
  | @step state final later onward inductionHypothesis =>
      obtain completes | ⟨stillAbove, stillInProgress⟩ := State.interrupted_step inProgress
      · exact .inl ⟨state, List.mem_cons_self, completes⟩
      · obtain ⟨completing, member, completes⟩ | still :=
          inductionHypothesis stillInProgress
        · exact .inl ⟨completing, List.mem_cons_of_mem _ member, completes⟩
        · exact .inr still
  | wake host resting onward inductionHypothesis => exact inductionHypothesis inProgress

end Trace

end LedSketch.Machine
