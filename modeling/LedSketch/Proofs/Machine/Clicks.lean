import LedSketch.Proofs.Machine.Handlers

namespace LedSketch.Machine

/-!
# Clicks during a run

A step takes at most the oldest press, and while the run is current, a handler is begun
only for a press that is taken: the one that the button has at that moment.
-/

open Script

namespace State

/-- The button whose press the next step takes, with the handler it has at that moment. -/
def taken? (state : State) : Option (Nat × Option Value) :=
  match state.control with
  | .nextClick =>
      state.world.host.clicks.take?.map fun click =>
        (click.1, state.world.board.buttons[click.1]?.bind Button.handler)
  | _ => none

/-- The handler that is called in another state while one more is in progress there. -/
def begun? (state next : State) : Option Value :=
  if state.handlers < next.handlers then
    match next.control with
    | .call handler _ _ => some handler
    | _ => none
  else
    none

/-- The handler that the next step begins. -/
def invoked? (state : State) : Option Value := state.begun? state.step

end State

/-- What a step that selects no click leaves as it is. -/
structure Quiet (state next : State) : Prop where
  live : next.live = state.live
  clicks : next.world.host.clicks = state.world.host.clicks
  handlers : next.handlers ≤ state.handlers

/-- Clicks are taken, and handlers begun, only where a click is selected. -/
theorem Transition.quiet
    {state next : State}
    (transition : Transition state next)
    (notSelecting : state.control.selectsClick = false) :
    Quiet state next := by
  have selects {control : Control} (same : state.control = control) :
      control.selectsClick = false := same ▸ notSelecting
  cases transition with
  | rest paused => exact ⟨rfl, rfl, Nat.le_refl _⟩
  | work plain onward =>
      exact ⟨congrArg Host.live onward.host, congrArg Host.clicks onward.host,
        Nat.le_of_eq onward.handlers_eq⟩
  | take plain top plainFrame onward =>
      refine ⟨congrArg Host.live onward.host, congrArg Host.clicks onward.host, ?_⟩
      rw [handlers_of_top top (Frame.isHandlerCall_of_isPlain plainFrame)]
      exact Nat.le_of_eq onward.handlers_eq
  | unwind scopes depth raised top other =>
      refine ⟨rfl, rfl, ?_⟩
      rw [handlers_of_top top other]
      exact Nat.le_refl _
  | native plain effects onward =>
      exact ⟨(congrArg Host.live onward.host).trans effects.live_eq,
        (congrArg Host.clicks onward.host).trans effects.clicks_eq,
        Nat.le_of_eq onward.handlers_eq⟩
  | delay line plain effects =>
      exact ⟨effects.live_eq, effects.clicks_eq, Nat.le_of_eq (handlers_push rfl)⟩
  | delayReturns given top | delayStale given top | programEnds completed top
  | programLeft fault completed top | setupReturns given top | iterationEnds given top =>
      refine ⟨rfl, rfl, ?_⟩
      rw [handlers_of_top top rfl]
      exact Nat.le_refl _
  | loopCalled given top | loopReturns given top =>
      refine ⟨rfl, rfl, ?_⟩
      rw [handlers_of_top top rfl]
      exact Nat.le_of_eq (handlers_push rfl)
  | handlerReturns given top | handlerFails raised top =>
      refine ⟨rfl, rfl, ?_⟩
      rw [handlers_of_handlerCall top]
      exact Nat.le_succ _
  | setupFound | iterationBegins =>
      exact ⟨rfl, rfl, Nat.le_of_eq (handlers_push rfl)⟩
  | dispatchBusy | dispatchBegins | setupMissing | loopFound | loopMissing | iterationsDone
  | loopStale | finishes | fails => exact ⟨rfl, rfl, Nat.le_refl _⟩
  | clicksDone selecting | clickIgnored selecting | clickHandled selecting
  | clickStale selecting => cases selects selecting

namespace State

variable {state : State}

theorem step_of_selecting (selecting : state.control = .nextClick) :
    state.step = state.stepNextClick := by
  rw [step, selecting]

/-- The handler that is looked up for a click is the one of the button. -/
theorem map_snd_handlerOf?
    (board : Board)
    (id : Nat) :
    (handlerOf? board id).map Prod.snd = board.buttons[id]?.bind Button.handler := by
  unfold handlerOf?
  cases board.buttons[id]? with
  | none => rfl
  | some button => cases handler : button.handler <;> simp [handler]

theorem taken?_of_selecting (selecting : state.control = .nextClick) :
    state.taken? =
      state.world.host.clicks.take?.map fun click =>
        (click.1, (handlerOf? state.world.board click.1).map Prod.snd) := by
  rw [taken?, selecting]
  simp only [map_snd_handlerOf?]

theorem taken?_of_not_selecting (notSelecting : state.control.selectsClick = false) :
    state.taken? = none := by
  unfold taken?
  split
  · next selecting =>
      rw [selecting] at notSelecting
      contradiction
  · rfl

theorem selecting_of_selectsClick (selects : state.control.selectsClick = true) :
    state.control = .nextClick := by
  cases control : state.control <;> rw [control] at selects <;> first | rfl | contradiction

theorem step_live (state : State) : state.step.live = state.live := by
  cases selects : state.control.selectsClick with
  | false => exact (state.transition_step.quiet selects).live
  | true =>
      rw [step_of_selecting (selecting_of_selectsClick selects)]
      unfold stepNextClick
      dsimp only
      split
      · rfl
      · split
        · rfl
        · split <;> rfl

/-- What a step takes comes from the front of the queue, and nothing else is taken. -/
theorem waiting_step (state : State) :
    state.world.host.clicks.waiting =
      (state.taken?.map Prod.fst).toList ++ state.step.world.host.clicks.waiting := by
  cases selects : state.control.selectsClick with
  | false =>
      rw [taken?_of_not_selecting selects, (state.transition_step.quiet selects).clicks]
      rfl
  | true =>
      have selecting := selecting_of_selectsClick selects
      rw [taken?_of_selecting selecting, step_of_selecting selecting]
      unfold stepNextClick
      dsimp only
      cases waiting : state.world.host.clicks.waiting with
      | nil =>
          have nothing : state.world.host.clicks.take? = none := by
            rw [ClickQueue.take?, waiting]
          rw [nothing]
          exact waiting.symm
      | cons button later =>
          have taken : state.world.host.clicks.take? = some (button, ⟨later⟩) := by
            rw [ClickQueue.take?, waiting]
          rw [taken]
          dsimp only
          split
          · rfl
          · split <;> rfl

/-- While the run is current, the handler that a taken press has is the one begun. -/
theorem invoked?_eq (live : state.live = true) :
    state.invoked? = state.taken?.bind Prod.snd := by
  cases selects : state.control.selectsClick with
  | false =>
      -- Elsewhere a step begins no handler, also where it puts a frame on the stack.
      have notMore := Nat.not_lt.mpr (state.transition_step.quiet selects).handlers
      rw [taken?_of_not_selecting selects]
      exact if_neg notMore
  | true =>
      have selecting := selecting_of_selectsClick selects
      unfold invoked?
      rw [taken?_of_selecting selecting, step_of_selecting selecting]
      unfold stepNextClick
      dsimp only
      cases state.world.host.clicks.take? with
      | none => exact if_neg (Nat.lt_irrefl _)
      | some click =>
          rcases click with ⟨id, clicks⟩
          dsimp only
          cases handled : handlerOf? state.world.board id with
          | none =>
              simp only [Option.map_some, handled, Option.map_none, Option.bind_some]
              exact if_neg (Nat.lt_irrefl _)
          | some found =>
              rcases found with ⟨label, handler⟩
              simp only [live, if_true, Option.map_some, handled, Option.bind_some]
              refine if_pos ?_
              unfold handlers
              exact Nat.lt_of_lt_of_eq (Nat.lt_succ_self _)
                (List.countP_cons_of_pos rfl).symm

end State

end LedSketch.Machine
