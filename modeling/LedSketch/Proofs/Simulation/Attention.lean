import LedSketch.Proofs.Machine.Attention
import LedSketch.Proofs.Simulation.Watch

namespace LedSketch

/-!
# No click is left waiting

Presses come between polls.  A poll that finds the run at rest has taken all of them from the
queue when the run rests again, unless a handler is still in progress then.
-/

/-- Whether a poll tells that the run is pending. -/
def PollResult.isPending : PollResult → Bool
  | .pending => true
  | _ => false

theorem PollResult.eq_of_isPending
    {result : PollResult}
    (pending : result.isPending = true) :
    result = .pending := by
  cases result with
  | pending => rfl
  | ready | overBudget => contradiction

namespace Run

variable {config : Config} {run : Run} {host : Host}

/-- Once polled, a run is no longer fresh. -/
theorem poll_not_fresh (source : String) :
    (run.poll config host).2.1.phase ≠ .fresh source := by
  cases resumed : run.resume? config host with
  | none =>
      obtain ⟨result, phase, log, polled, notPending, notResting, notFresh⟩ :=
        poll_of_no_resume resumed
      rw [polled]
      exact notFresh source
  | some state =>
      rw [poll_of_resume resumed]
      exact settle_not_fresh run _ source

/-- A poll that leaves a run pending has woken it up, unless the run was fresh. -/
theorem woken_of_pending
    (begun : ∀ source, run.phase ≠ .fresh source)
    (pending : (run.poll config host).1 = .pending) :
    ∃ kept,
      run.phase = .suspended kept ∧
        run.poll config host = run.settle ((kept.wake host).goOn config) := by
  cases resumed : run.resume? config host with
  | none =>
      obtain ⟨result, phase, log, polled, notPending, others⟩ := poll_of_no_resume resumed
      rw [polled] at pending
      exact (notPending pending).elim
  | some state =>
      rcases resume?_cases resumed with
          ⟨source, program, log, fresh, began⟩ | ⟨kept, suspended, rfl⟩
      · exact (begun source fresh).elim
      · exact ⟨kept, suspended, poll_of_resume resumed⟩

/-- A run that has begun handles every click before it rests without a handler. -/
theorem waiting_of_pending
    {state : Machine.State}
    (begun : ∀ source, run.phase ≠ .fresh source)
    (restable : run.IsRestable)
    (pending : (run.poll config host).1 = .pending)
    (suspended : (run.poll config host).2.1.phase = .suspended state)
    (balanced : state.Balanced)
    (noHandler : state.handlers = 0) :
    (run.poll config host).2.2.clicks.waiting = [] := by
  obtain ⟨kept, wasResting, settled⟩ := woken_of_pending begun pending
  obtain ⟨frame, rest, top, rests⟩ := restable kept wasResting
  rw [settled] at suspended ⊢
  obtain ⟨resting, rfl⟩ := settle_suspended suspended
  have attentive : ((kept.wake host).goOn config).Attentive :=
    Machine.State.attentive_advance (Machine.State.attentive_wake top rests host) _
  obtain ⟨shownEvents, shownClicks⟩ := run.settle_shown ((kept.wake host).goOn config)
  rw [shownClicks]
  exact Machine.State.waiting_of_attentive attentive balanced resting noHandler

end Run

namespace Watch

variable {watch : Watch}

theorem follow_not_fresh
    (inputs : List Input)
    (begun : ∀ source, watch.run.phase ≠ .fresh source)
    (source : String) :
    (watch.follow inputs).run.phase ≠ .fresh source := by
  induction inputs generalizing watch with
  | nil => exact begun source
  | cons input later inductionHypothesis =>
      apply inductionHypothesis
      intro other
      cases input with
      | press button =>
          unfold next
          dsimp only
          split <;> exact begun other
      | poll => exact Run.poll_not_fresh other

theorem not_fresh_of_polled
    {inputs : List Input}
    (polled : .poll ∈ inputs)
    (source : String) :
    (watch.follow inputs).run.phase ≠ .fresh source := by
  induction inputs generalizing watch with
  | nil => contradiction
  | cons input later inductionHypothesis =>
      rcases List.mem_cons.mp polled with rfl | inLater
      · exact follow_not_fresh later (fun _ => Run.poll_not_fresh _) source
      · exact inductionHypothesis inLater

/-- The run that is watched rests only where runs can rest. -/
theorem isRestable_follow
    (restable : watch.run.IsRestable)
    (inputs : List Input) :
    (watch.follow inputs).run.IsRestable := by
  induction inputs generalizing watch with
  | nil => exact restable
  | cons input later inductionHypothesis =>
      apply inductionHypothesis
      cases input with
      | press button =>
          unfold next
          dsimp only
          split <;> exact restable
      | poll =>
          intro state suspended
          exact Run.isRestable_poll _ _ _ state suspended

/--
Whenever a poll other than the first one leaves a run at rest, either a click handler is
in progress or the click queue is empty.
-/
theorem no_click_left_waiting
    (simulator : Simulator)
    (source : String)
    (inputs : List Input)
    (polledBefore : .poll ∈ inputs) :
    let watch := (start simulator source).follow inputs
    let polled := watch.simulator.poll watch.run
    polled.1 = .pending →
      ∃ state,
        polled.2.1.phase = .suspended state ∧
          (state.handlers = 0 → polled.2.2.clicks = .empty) := by
  intro watch polled pending
  have sound : watch.Sound := (Sound.start simulator source).follow inputs
  have restable : watch.run.IsRestable :=
    isRestable_follow (fun _ suspended => Phase.noConfusion suspended) inputs
  obtain ⟨state, suspended⟩ := Run.poll_pending pending
  have balanced : state.Balanced := sound.poll.stage.balanced (.inr suspended)
  have nothing (noHandler : state.handlers = 0) : polled.2.2.clicks.waiting = [] :=
    Run.waiting_of_pending (not_fresh_of_polled polledBefore) restable pending suspended
      balanced noHandler
  exact ⟨state, suspended, fun noHandler => congrArg ClickQueue.mk (nothing noHandler)⟩

/-- Two presses of a button with a handler are handled before the second delay. -/
theorem no_click_left_waiting_after_presses :
    let watch :=
      (start (.create ⟨1, none, .grb, 1000⟩)
        "createButton(1).onClick(millis);delay(1);delay(1);").follow
          [.poll, .press 0, .press 0]
    let polled := watch.simulator.poll watch.run
    .poll ∈ [Input.poll, .press 0, .press 0] ∧
      watch.simulator.clicks.waiting = [0, 0] ∧
      polled.1 = .pending ∧
        (∃ state,
          polled.2.1.phase = .suspended state ∧
            state.handlers = 0 ∧ polled.2.2.clicks = .empty) ∧
        ((watch.next .poll).states.filterMap Machine.State.invoked?).map Script.Heap.displayAtom =
          ["function millis", "function millis"] := by
  have polledBefore : .poll ∈ [Input.poll, .press 0, .press 0] := List.mem_cons_self
  have handled :=
    no_click_left_waiting (.create ⟨1, none, .grb, 1000⟩)
      "createButton(1).onClick(millis);delay(1);delay(1);" [.poll, .press 0, .press 0]
      polledBefore
  dsimp only at handled ⊢
  obtain ⟨state, suspended, emptied⟩ := handled (PollResult.eq_of_isPending (by decide +kernel))
  have noHandler : state.handlers = 0 := by
    have counted : _ = state.handlers :=
      congrArg (fun phase : Phase => match phase with
        | .suspended kept => kept.handlers
        | _ => 1) suspended
    rw [← counted]
    decide +kernel
  exact ⟨polledBefore, by decide +kernel, PollResult.eq_of_isPending (by decide +kernel),
    ⟨state, suspended, noHandler, emptied noHandler⟩, by decide +kernel⟩

end Watch

end LedSketch
