import LedSketch.Proofs.Machine.Transition

namespace LedSketch.Machine

/-!
# Handlers in progress

A handler is in progress only while the run is marked as dispatching, so there is never
more than one.  The frames that it has interrupted lie below it and stay as they are
until it has completed.
-/

open Script

/-- Whether a control is about to take a click. -/
def Control.selectsClick : Control → Bool
  | .nextClick => true
  | _ => false

theorem Control.selectsClick_of_isPlain
    {control : Control}
    (plain : control.isPlain = true) :
    control.selectsClick = false := by
  cases control <;> first | rfl | contradiction

namespace State

/-- The number of click handlers in progress. -/
def handlers (state : State) : Nat := state.stack.countP Frame.isHandlerCall

/-- A run is dispatching exactly while a handler is in progress or being selected. -/
def Balanced (state : State) : Prop :=
  state.handlers + state.control.selectsClick.toNat = state.dispatching.toNat

/-- The next step completes the handler that has interrupted some frames. -/
def CompletesHandler
    (interrupted : List Frame)
    (state : State) :
    Prop :=
  state.stack = .handlerCall :: interrupted ∧ state.step.stack = interrupted

theorem Balanced.handlers_le
    {state : State}
    (balanced : state.Balanced) :
    state.handlers ≤ 1 := by
  have atMostOne := Bool.toNat_le state.dispatching
  unfold Balanced at balanced
  omega

end State

section Handlers

variable {state next : State}

theorem handlers_push
    {frame : Frame}
    {rest : List Frame}
    (other : frame.isHandlerCall = false) :
    (frame :: rest).countP Frame.isHandlerCall = rest.countP Frame.isHandlerCall := by
  rw [List.countP_cons, other]
  rfl

theorem Local.handlers_eq (onward : Local state next) : next.handlers = state.handlers := by
  obtain ⟨pushed, grown, plain⟩ := onward.stack
  have none : pushed.countP Frame.isHandlerCall = 0 := by
    rw [List.countP_eq_zero]
    intro frame member
    rw [Frame.isHandlerCall_of_isPlain (plain frame member)]
    exact Bool.false_ne_true
  unfold State.handlers
  rw [grown, List.countP_append, none, Nat.zero_add]

theorem handlers_of_top
    {frame : Frame}
    {rest : List Frame}
    (top : state.stack = frame :: rest)
    (other : frame.isHandlerCall = false) :
    state.handlers = rest.countP Frame.isHandlerCall := by
  unfold State.handlers
  rw [top, handlers_push other]

theorem handlers_of_handlerCall
    {rest : List Frame}
    (top : state.stack = .handlerCall :: rest) :
    state.handlers = rest.countP Frame.isHandlerCall + 1 := by
  unfold State.handlers
  rw [top]
  exact List.countP_cons_of_pos rfl

end Handlers

namespace State.Balanced

variable {state next : State}

/-- Where no click is selected, equally many handlers and the same mark stay balanced. -/
theorem of_same
    (balanced : state.Balanced)
    (notSelecting : state.control.selectsClick = false)
    (notSelectingNext : next.control.selectsClick = false)
    (sameHandlers : next.handlers = state.handlers)
    (sameMark : next.dispatching = state.dispatching) :
    next.Balanced := by
  unfold Balanced at *
  rw [notSelecting] at balanced
  rw [notSelectingNext, sameHandlers, sameMark]
  exact balanced

/-- While a click is selected no handler is in progress. -/
theorem of_selecting
    (balanced : state.Balanced)
    (selecting : state.control = .nextClick) :
    state.handlers = 0 ∧ state.dispatching = true := by
  unfold Balanced at balanced
  rw [selecting] at balanced
  change state.handlers + 1 = state.dispatching.toNat at balanced
  cases mark : state.dispatching with
  | false =>
      rw [mark] at balanced
      contradiction
  | true =>
      rw [mark] at balanced
      exact ⟨Nat.succ.inj balanced, rfl⟩

/-- The handler on top of the stack is the only one. -/
theorem of_handlerCall
    {rest : List Frame}
    (balanced : state.Balanced)
    (top : state.stack = .handlerCall :: rest) :
    rest.countP Frame.isHandlerCall = 0 ∧ state.dispatching = true := by
  have one := balanced.handlers_le
  have counted := handlers_of_handlerCall top
  unfold Balanced at balanced
  cases mark : state.dispatching with
  | false =>
      rw [mark] at balanced
      change state.handlers + _ = 0 at balanced
      omega
  | true => exact ⟨by omega, rfl⟩

end State.Balanced

theorem Transition.balanced
    {state next : State}
    (transition : Transition state next)
    (balanced : state.Balanced) :
    next.Balanced := by
  have selects {control : Control}
      (same : state.control = control)
      (other : control.selectsClick = false) :
      state.control.selectsClick = false := same ▸ other
  cases transition with
  | rest paused => exact balanced
  | work plain onward =>
      exact balanced.of_same (Control.selectsClick_of_isPlain plain)
        (Control.selectsClick_of_isPlain onward.control) onward.handlers_eq
        onward.dispatching
  | take plain top plainFrame onward =>
      have sameHandlers := handlers_of_top top (Frame.isHandlerCall_of_isPlain plainFrame)
      exact balanced.of_same (Control.selectsClick_of_isPlain plain)
        (Control.selectsClick_of_isPlain onward.control)
        (onward.handlers_eq.trans sameHandlers.symm) onward.dispatching
  | native plain effects onward =>
      exact balanced.of_same (Control.selectsClick_of_isPlain plain)
        (Control.selectsClick_of_isPlain onward.control) onward.handlers_eq
        onward.dispatching
  | unwind scopes depth raised top other =>
      exact balanced.of_same (selects raised rfl) (selects raised rfl)
        (handlers_of_top top other).symm rfl
  | delay line plain effects =>
      exact balanced.of_same (Control.selectsClick_of_isPlain plain) rfl (handlers_push rfl)
        rfl
  | delayReturns given top | delayStale given top | setupReturns given top
  | iterationEnds given top =>
      exact balanced.of_same (selects given rfl) rfl (handlers_of_top top rfl).symm rfl
  | programEnds completed top | programLeft fault completed top =>
      exact balanced.of_same (selects completed rfl) rfl (handlers_of_top top rfl).symm rfl
  | loopCalled given top | loopReturns given top =>
      exact balanced.of_same (selects given rfl) rfl
        ((handlers_push rfl).trans (handlers_of_top top rfl).symm) rfl
  | setupFound asked | iterationBegins asked =>
      exact balanced.of_same (selects asked rfl) rfl (handlers_push rfl) rfl
  | dispatchBusy asked | setupMissing asked | loopFound asked | loopMissing asked
  | iterationsDone asked | loopStale asked =>
      exact balanced.of_same (selects asked rfl) rfl rfl rfl
  | finishes plain empty =>
      exact balanced.of_same (Control.selectsClick_of_isPlain plain) rfl rfl rfl
  | fails raised empty => exact balanced.of_same (selects raised rfl) rfl rfl rfl
  -- Here the mark changes together with the click that is selected or the handler.
  | dispatchBegins asked idle =>
      unfold State.Balanced at balanced
      rw [asked, idle] at balanced
      exact congrArg Nat.succ balanced
  | clicksDone selecting => exact (balanced.of_selecting selecting).1
  | clickIgnored selecting => exact balanced
  | clickHandled selecting =>
      obtain ⟨noHandler, mark⟩ := balanced.of_selecting selecting
      unfold State.Balanced
      rw [handlers_of_handlerCall rfl]
      change state.handlers + 1 + 0 = state.dispatching.toNat
      rw [noHandler, mark]
      rfl
  | clickStale selecting => exact (balanced.of_selecting selecting).1
  | @handlerReturns value rest given top =>
      obtain ⟨noOther, mark⟩ := balanced.of_handlerCall top
      change rest.countP Frame.isHandlerCall + 1 = state.dispatching.toNat
      rw [noOther, mark]
      rfl
  | @handlerFails interrupt rest raised top =>
      obtain ⟨noOther, mark⟩ := balanced.of_handlerCall top
      change rest.countP Frame.isHandlerCall + state.control.selectsClick.toNat = 0
      rw [noOther, selects raised rfl]
      rfl

/-- A step puts frames on the stack, after it may have taken the top frame away. -/
theorem Transition.stack_cases
    {state next : State}
    (transition : Transition state next) :
    (∃ pushed, next.stack = pushed ++ state.stack) ∨
      ∃ frame rest pushed,
        state.stack = frame :: rest ∧ next.stack = pushed ++ rest ∧
          (frame = .handlerCall → pushed = []) := by
  cases transition with
  | work plain onward | native plain effects onward =>
      obtain ⟨pushed, grown, allPlain⟩ := onward.stack
      exact .inl ⟨pushed, grown⟩
  | @take next frame rest plain top plainFrame onward =>
      obtain ⟨pushed, grown, allPlain⟩ := onward.stack
      refine .inr ⟨frame, rest, pushed, top, grown, ?_⟩
      rintro rfl
      contradiction
  | @unwind interrupt frame rest scopes depth raised top other =>
      exact .inr ⟨frame, rest, [], top, rfl, fun _ => rfl⟩
  | delay line => exact .inl ⟨[.delayEnd line], rfl⟩
  | clickHandled => exact .inl ⟨[.handlerCall], rfl⟩
  | setupFound => exact .inl ⟨[.setupCall], rfl⟩
  | @iterationBegins main => exact .inl ⟨[.dispatchBeforeLoop main], rfl⟩
  | @loopCalled main value rest given top =>
      exact .inr ⟨_, rest, [.loopCall main], top, rfl, fun same => nomatch same⟩
  | @loopReturns main value rest given top =>
      exact .inr ⟨_, rest, [.iterationEnd main], top, rfl, fun same => nomatch same⟩
  | delayReturns given top | delayStale given top | programEnds given top
  | setupReturns given top | iterationEnds given top | handlerReturns given top
  | handlerFails given top | programLeft fault given top =>
      exact .inr ⟨_, _, [], top, rfl, fun _ => rfl⟩
  | rest | dispatchBusy | dispatchBegins | clicksDone | clickIgnored | clickStale
  | setupMissing | loopFound | loopMissing | iterationsDone | loopStale | finishes
  | fails => exact .inl ⟨[], rfl⟩

/-- What a handler has interrupted stays below it until a step completes the handler. -/
theorem State.interrupted_step
    {state : State}
    {above interrupted : List Frame}
    (inProgress : state.stack = above ++ .handlerCall :: interrupted) :
    state.CompletesHandler interrupted ∨
      ∃ stillAbove, state.step.stack = stillAbove ++ .handlerCall :: interrupted := by
  obtain ⟨pushed, grown⟩ | ⟨frame, rest, pushed, top, grown, completes⟩ :=
    state.transition_step.stack_cases
  · rw [inProgress, ← List.append_assoc] at grown
    exact .inr ⟨_, grown⟩
  · rw [inProgress] at top
    cases above with
    | nil =>
        -- The handler's own frame is taken away, and nothing is put in its place.
        cases top
        rw [completes rfl] at grown
        exact .inl ⟨inProgress, grown⟩
    | cons first above =>
        rw [List.cons_append] at top
        obtain ⟨sameFrame, sameRest⟩ := List.cons.inj top
        rw [← sameRest, ← List.append_assoc] at grown
        exact .inr ⟨_, grown⟩

end LedSketch.Machine
