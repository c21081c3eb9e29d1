import LedSketch.Proofs.Machine.Sheltered
import LedSketch.Proofs.Simulation.StrayJumps

namespace LedSketch

/-!
# The depth of calls

The depth of a run is the number of calls of script functions in progress, those of click
handlers included.  It is bounded, and a call leaves both the depth and the mark of a
handler in progress as it has found them, however it ends.
-/

open Script (Interrupt Program RuntimeFault)

namespace Machine

/-- The number of calls of script functions that frames wait for. -/
def callsIn (frames : List Frame) : Nat := frames.countP Frame.isActivation

/-- Every call has noted the number of the calls below it. -/
def Noted : List Frame → Prop
  | [] => True
  | .activation depth :: rest => depth = callsIn rest ∧ Noted rest
  | _ :: rest => Noted rest

/-- A frame that closes no scope is no call. -/
theorem isActivation_of_closes
    {frame : Frame}
    (other : frame.closes = false) :
    frame.isActivation = false := by
  cases frame <;> first | rfl | contradiction

section Other

variable {frame : Frame} {rest : List Frame}

/-- Other frames are not counted as calls. -/
theorem callsIn_cons (other : frame.isActivation = false) :
    callsIn (frame :: rest) = callsIn rest := by
  unfold callsIn
  rw [List.countP_cons, other]
  rfl

/-- Other frames note no depth. -/
theorem noted_cons (other : frame.isActivation = false) :
    Noted (frame :: rest) ↔ Noted rest := by
  cases frame <;> first | rfl | contradiction

/-- Frames other than those of calls count for nothing. -/
theorem callsIn_append
    {pushed : List Frame}
    (others : ∀ frame ∈ pushed, frame.isActivation = false) :
    callsIn (pushed ++ rest) = callsIn rest ∧ (Noted (pushed ++ rest) ↔ Noted rest) := by
  induction pushed with
  | nil => exact ⟨rfl, Iff.rfl⟩
  | cons frame pushed inductionHypothesis =>
      obtain ⟨other, others⟩ := List.forall_mem_cons.mp others
      obtain ⟨sameCalls, sameNoted⟩ := inductionHypothesis others
      exact ⟨(callsIn_cons other).trans sameCalls, (noted_cons other).trans sameNoted⟩

end Other

/-- The depth of a state is the number of its calls, and within the bound. -/
structure State.Counted (state : State) : Prop where
  depth : state.depth = callsIn state.stack
  noted : Noted state.stack
  bounded : state.depth ≤ deepestCall

namespace State.Counted

variable {state base next : State}

/-- The count is of the frames only. -/
theorem of_same
    (counted : state.Counted)
    (sameStack : next.stack = state.stack)
    (sameDepth : next.depth = state.depth) :
    next.Counted :=
  ⟨by rw [sameDepth, sameStack, counted.depth], by rw [sameStack]; exact counted.noted,
    by rw [sameDepth]; exact counted.bounded⟩

/-- Another frame may be taken from the stack. -/
theorem popped
    {frame : Frame}
    {rest : List Frame}
    (counted : state.Counted)
    (top : state.stack = frame :: rest)
    (other : frame.isActivation = false) :
    (state.popped rest).Counted := by
  obtain ⟨depth, noted, bounded⟩ := counted
  rw [top] at depth noted
  exact ⟨depth.trans (callsIn_cons other), (noted_cons other).mp noted, bounded⟩

/-- Another frame may be put on the stack. -/
theorem push
    {frame : Frame}
    (counted : state.Counted)
    (other : frame.isActivation = false) :
    (state.push frame).Counted :=
  ⟨counted.depth.trans (callsIn_cons other).symm, (noted_cons other).mpr counted.noted,
    counted.bounded⟩

theorem taken
    (counted : state.Counted)
    (taken : Taken state base) :
    base.Counted := by
  cases taken with
  | nothing => exact counted
  | frame top other => exact counted.popped top (isActivation_of_closes other)

theorem sameScopes
    (counted : state.Counted)
    (onward : SameScopes state next) :
    next.Counted := by
  obtain ⟨⟨pushed, grown, others⟩, _, sameDepth⟩ := onward
  obtain ⟨sameCalls, sameNoted⟩ :=
    @callsIn_append state.stack pushed fun frame member =>
      isActivation_of_closes (others frame member)
  refine ⟨?_, ?_, ?_⟩
  · rw [sameDepth, grown, sameCalls, counted.depth]
  · rw [grown]
    exact sameNoted.mpr counted.noted
  · rw [sameDepth]
    exact counted.bounded

/-- A function is entered one call deeper, and left at the depth that its call has noted. -/
theorem step (counted : state.Counted) : state.step.Counted := by
  have scoping := state.scoping_step
  generalize state.step = next at scoping
  cases scoping with
  | keeps taken onward => exact (counted.taken taken).sameScopes onward
  | @opens base _ taken onward =>
      have opened : (base.withScopes base.scopes.push).Counted :=
        (counted.taken taken).of_same rfl rfl
      have pushed : ((base.withScopes base.scopes.push).push .openScope).Counted :=
        opened.push rfl
      exact pushed.sameScopes onward
  | enters asked shallow isOpen stack scopes depth =>
      have oneMore : callsIn (.activation state.depth :: state.stack) = callsIn state.stack + 1 :=
        List.countP_cons_of_pos rfl
      refine ⟨?_, ?_, ?_⟩
      · rw [depth, stack, oneMore, counted.depth]
      · rw [stack]
        exact ⟨counted.depth, counted.noted⟩
      · rw [depth]
        exact shallow
  | closes top stack scopes depth =>
      exact (counted.popped top rfl).of_same stack depth
  | @leaves outerDepth rest _ top stack scopes depth answers =>
      obtain ⟨calls, noted, bounded⟩ := counted
      rw [top] at calls noted
      have oneMore : callsIn (.activation outerDepth :: rest) = callsIn rest + 1 :=
        List.countP_cons_of_pos rfl
      obtain ⟨isNoted, notedBelow⟩ := noted
      refine ⟨?_, ?_, ?_⟩
      · rw [depth, stack, isNoted]
      · rw [stack]
        exact notedBelow
      · rw [depth]
        omega

end State.Counted

namespace State

variable {state : State}

/-- Until it has passed all frames, an interrupt goes on. -/
theorem control_advance_of_raise
    {interrupt : Interrupt}
    (raised : state.control = .raise interrupt)
    {steps : Nat}
    (within : steps ≤ state.stack.length) :
    (state.advance steps).control = .raise interrupt := by
  induction steps generalizing state with
  | zero => exact raised
  | succ steps inductionHypothesis =>
      have running : state.paused = false := by rw [paused, raised]
      rw [advance_succ running]
      cases top : state.stack with
      | nil =>
          rw [top] at within
          contradiction
      | cons frame rest =>
          obtain ⟨sameControl, sameStack, _⟩ := (state.popped rest).stepRaise_keeps frame
          rw [← step_of_raise raised top] at sameControl sameStack
          rw [top] at within
          refine inductionHypothesis (sameControl.trans raised) ?_
          rw [sameStack]
          exact Nat.le_of_succ_le_succ within

/-- At the deepest level a call fails, and all that happens then is that the run ends. -/
theorem call_of_deepest
    {closure : Script.Closure}
    {arguments : List Script.Value}
    {line : Nat}
    (asked : state.control = .call (.function closure) arguments line)
    (deepest : state.depth = deepestCall) :
    state.step = state.fault line .callsExhausted ∧
      ∃ steps,
        (state.advance (steps + 1)).control =
            .halted (.failed (.runtime line .callsExhausted)) ∧
          ∀ earlier < steps,
            (state.advance (earlier + 1)).control =
              .raise (.failed (.runtime line .callsExhausted)) := by
  have running : state.paused = false := by rw [paused, asked]
  have failed : state.step = state.fault line .callsExhausted := by
    rw [step, asked]
    exact if_pos (Nat.le_of_eq deepest.symm)
  have raised : state.step.control = .raise (.failed (.runtime line .callsExhausted)) := by
    rw [failed]
    rfl
  refine ⟨failed, state.step.stack.length + 1, ?_, ?_⟩
  · have ended := (advance_of_raise raised 0).1
    rwa [Nat.zero_add, ← advance_succ running] at ended
  · intro earlier within
    rw [advance_succ running]
    exact control_advance_of_raise raised (Nat.le_of_lt_succ within)

/-- Wherever a call is made or ends over the same frames, depth and mark are the same. -/
theorem same_of_ends
    {calling : State}
    {callee : Script.Value}
    {arguments : List Script.Value}
    {line : Nat}
    (asked : calling.control = .call callee arguments line)
    (counted : calling.Counted ∧ calling.Balanced)
    (countedHere : state.Counted ∧ state.Balanced)
    (ended : state.Ends calling.stack) :
    state.depth = calling.depth ∧ state.dispatching = calling.dispatching := by
  refine ⟨by rw [countedHere.1.depth, counted.1.depth, ended.stack], ?_⟩
  have noneSelected : state.control.selectsClick = false := by
    have answers := ended.answers
    cases control : state.control <;> rw [control] at answers <;> first | rfl | contradiction
  have marked := countedHere.2
  have markedBefore := counted.2
  unfold Balanced handlers at marked markedBefore
  rw [noneSelected, ended.stack] at marked
  rw [asked] at markedBefore
  have same : state.dispatching.toNat = calling.dispatching.toNat :=
    marked.symm.trans markedBefore
  cases mark : state.dispatching <;> cases markBefore : calling.dispatching <;>
    rw [mark, markBefore] at same <;> first | rfl | contradiction

end State

/-- At every moment the depth is the number of calls. -/
theorem Lasting.counted : Lasting fun _ state => state.Counted ∧ state.Balanced where
  step holds := ⟨holds.1.step, (State.transition_step _).balanced holds.2⟩
  attach _ _ holds := ⟨holds.1.of_same rfl rfl, holds.2⟩
  wake _ resting holds :=
    ⟨holds.1.of_same rfl rfl, holds.2.of_same (by rw [resting]; rfl) rfl rfl rfl⟩

end Machine

namespace Chronicle

open Machine (Frame State callsIn)

section Depth

variable {config : Config} {generation : UInt64} {source : String} {hosts : List Host}

theorem counted
    {past : List State}
    {state : State}
    (moment : ((start generation source).follow config hosts).Moment past state) :
    state.Counted ∧ state.Balanced :=
  moment.lasting Machine.Lasting.counted fun _ _ _ => ⟨⟨rfl, trivial, Nat.zero_le _⟩, rfl⟩

/-- What a run has left behind has been a moment of it. -/
theorem Moment.earlier
    {chronicle : Chronicle}
    {before between : List State}
    {state earlier : State}
    (moment : chronicle.Moment (before ++ earlier :: between) state) :
    chronicle.Moment before earlier := by
  generalize whole : before ++ earlier :: between = past at moment
  cases moment with
  | running isStates =>
      rw [← whole, List.append_assoc] at isStates
      exact .running isStates
  | resting => exact .running whole.symm

/--
At every moment of a run its depth is the number of the calls of script functions in
progress, at most 100.  When a call has ended, with a value or with an interrupt, the depth
and the mark of a handler in progress are what they were when it was made.  A script
function that is called at depth 100 fails, and no step but the end of the run follows.
-/
theorem call_depth_exact
    (past : List State)
    (state : State)
    (moment : ((start generation source).follow config hosts).Moment past state) :
    state.depth = callsIn state.stack ∧
      state.depth ≤ 100 ∧
      (∀ before calling between callee arguments line,
        past = before ++ calling :: between →
        calling.control = .call callee arguments line →
        state.Ends calling.stack →
        state.depth = calling.depth ∧ state.dispatching = calling.dispatching) ∧
      ∀ closure arguments line,
        state.control = .call (.function closure) arguments line →
        state.depth = 100 →
        RuntimeFault.callsExhausted.message = "call stack exhausted" ∧
          state.step = state.fault line .callsExhausted ∧
          ∃ steps,
            (state.advance (steps + 1)).control =
                .halted (.failed (.runtime line .callsExhausted)) ∧
              ∀ earlier < steps,
                (state.advance (earlier + 1)).control =
                  .raise (.failed (.runtime line .callsExhausted)) := by
  have here := counted moment
  refine ⟨here.1.depth, here.1.bounded, ?_, ?_⟩
  · rintro before calling between callee arguments line rfl asked ended
    exact State.same_of_ends asked (counted moment.earlier) here ended
  · intro closure arguments line asked deepest
    exact ⟨rfl, State.call_of_deepest asked deepest⟩

end Depth

/-- Whether the last statement of the program is an expression that is in progress. -/
def endsProgram (state : State) : Bool :=
  match state.stack with
  | [.discarded, .blockRest [], .topLevel] => true
  | _ => false

theorem stack_of_endsProgram
    {state : State}
    (ends : endsProgram state = true) :
    state.stack = [.discarded, .blockRest [], .topLevel] := by
  unfold endsProgram at ends
  split at ends
  · assumption
  · contradiction

/-- A function that is called for its own default argument calls itself until it fails. -/
theorem call_depth_exact_of_endless_calls :
    ∃ (config : Config) (hosts : List Host) (chronicle : Chronicle)
      (before between past : List State) (calling ended deepest : State)
      (closure : Script.Closure) (line : Nat),
      chronicle = (start 1 "function f(a=f())\x7b\x7df();").follow config hosts ∧
        chronicle.Moment (before ++ calling :: between) ended ∧
        calling.control.calledFunction?.isSome = true ∧
        ended.Ends calling.stack ∧
        ended.depth = calling.depth ∧
        ended.dispatching = calling.dispatching ∧
        chronicle.Moment past deepest ∧
        deepest.control.calledFunction? = some closure ∧
        deepest.depth = 100 ∧
        callsIn deepest.stack = 100 ∧
        deepest.step = deepest.fault line .callsExhausted := by
  let config : Config := ⟨1, none, .grb, 1000⟩
  let hosts : List Host := [⟨true, .empty, #[], #[]⟩]
  let sketch := "function f(a=f())\x7b\x7df();"
  obtain ⟨calls, ends, exhausts⟩ :
      (((start 1 sketch).follow config hosts).states.take 811)[10]?.any (fun calling =>
            endsProgram calling && calling.control.calledFunction?.isSome) = true ∧
        ((start 1 sketch).follow config hosts).states[811]?.any (fun ended =>
            endsProgram ended && ended.control.isAnswer) = true ∧
        ((start 1 sketch).follow config hosts).states[610]?.any (fun deepest =>
            deepest.depth == 100 && deepest.control.calledFunction?.isSome) = true := by
    decide +kernel
  have applied := @call_depth_exact config 1 sketch hosts
  -- From here on the run stands for itself, so that nothing makes it go through its steps.
  generalize made : (start 1 sketch).follow config hosts = chronicle at *
  obtain ⟨ended, foundEnd, isEnd⟩ := (Option.any_eq_true _ _).mp ends
  obtain ⟨endStack, answers⟩ := (Bool.and_eq_true _ _).mp isEnd
  obtain ⟨deepest, foundDeepest, isDeepest⟩ := (Option.any_eq_true _ _).mp exhausts
  obtain ⟨isDeep, deepCalls⟩ := (Bool.and_eq_true _ _).mp isDeepest
  obtain ⟨closure, called⟩ := Option.isSome_iff_exists.mp deepCalls
  obtain ⟨arguments, line, asked⟩ := Machine.Control.exists_call_of_calledFunction? called
  have isDeep : deepest.depth = 100 := beq_iff_eq.mp isDeep
  have momentOfDeepest : chronicle.Moment _ deepest := .of_getElem? foundDeepest
  have momentOfEnd : chronicle.Moment (chronicle.states.take 811) ended := .of_getElem? foundEnd
  obtain ⟨counted, _, _, exhausted⟩ := applied _ deepest momentOfDeepest
  obtain ⟨_, _, restored, _⟩ := applied _ ended momentOfEnd
  obtain ⟨_, failed, _⟩ := exhausted closure arguments line asked isDeep
  generalize chronicle.states.take 811 = past at *
  obtain ⟨calling, isCalling, isCall⟩ := (Option.any_eq_true _ _).mp calls
  obtain ⟨callStack, callsFunction⟩ := (Bool.and_eq_true _ _).mp isCall
  obtain ⟨within, isElement⟩ := List.getElem?_eq_some_iff.mp isCalling
  have whole : past = past.take 10 ++ calling :: past.drop 11 := by
    rw [← isElement, ← List.drop_eq_getElem_cons within]
    exact (List.take_append_drop 10 past).symm
  have atEnd : ended.Ends calling.stack :=
    ⟨(stack_of_endsProgram endStack).trans (stack_of_endsProgram callStack).symm, answers⟩
  obtain ⟨inCall, isInCall⟩ := Option.isSome_iff_exists.mp callsFunction
  obtain ⟨given, callLine, callAsked⟩ :=
    Machine.Control.exists_call_of_calledFunction? isInCall
  obtain ⟨sameDepth, sameMark⟩ :=
    restored _ calling _ _ given callLine whole callAsked atEnd
  rw [whole] at momentOfEnd
  exact ⟨config, hosts, chronicle, _, _, _, calling, ended, deepest, closure, line, made.symm,
    momentOfEnd, callsFunction, atEnd, sameDepth, sameMark, momentOfDeepest, called, isDeep,
    counted.symm.trans isDeep, failed⟩

end Chronicle

end LedSketch
