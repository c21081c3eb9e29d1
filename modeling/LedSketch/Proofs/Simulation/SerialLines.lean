import LedSketch.Proofs.Machine.Steady
import LedSketch.Proofs.Simulation.Announced
import LedSketch.Proofs.Simulation.Chronicle

namespace LedSketch

/-!
# Serial lines

What is printed on the serial line comes out line by line.  A line is ended by a call of
`println` and by nothing else: a newline in a printed text is passed on as it is.
-/

open Machine (State Lasting)

/-- The serial lines among some events. -/
def Event.serialLines (events : List Event) : List String :=
  events.filterMap Event.serialLine?

namespace SerialCall

/-- What a call adds to the printed stream. -/
def written (call : SerialCall) : String :=
  if call.ends then call.text ++ "\n" else call.text

/-- The stream that some calls print. -/
def stream (calls : List SerialCall) : String := String.join (calls.map written)

end SerialCall

/-- The pieces of a text that are ended by a newline, without it. -/
def completeLines (text : String) : List String :=
  (text.toList.splitOn '\n').dropLast.map String.ofList

/-- Lines that are ended, and the text of the line that is still open. -/
structure Printed where
  lines : List String
  pending : String

namespace Printed

/-- What is printed after one more call. -/
def add
    (printed : Printed)
    (call : SerialCall) :
    Printed :=
  if call.ends then
    ⟨printed.lines ++ [printed.pending ++ call.text], ""⟩
  else
    ⟨printed.lines, printed.pending ++ call.text⟩

/-- What some calls print, one after the other. -/
def ofCalls (calls : List SerialCall) : Printed := calls.foldl add ⟨[], ""⟩

/-- The lines with a newline after each, and the open line. -/
def text (printed : Printed) : String :=
  String.join (printed.lines.map (· ++ "\n")) ++ printed.pending

theorem ofCalls_concat
    (calls : List SerialCall)
    (call : SerialCall) :
    ofCalls (calls ++ [call]) = (ofCalls calls).add call :=
  List.foldl_append

theorem text_add
    (printed : Printed)
    (call : SerialCall) :
    (printed.add call).text = printed.text ++ call.written := by
  unfold text add SerialCall.written
  cases call.ends <;> simp [String.append_assoc]

/-- The lines and the open line together are the printed stream. -/
theorem text_ofCalls (calls : List SerialCall) :
    (ofCalls calls).text = SerialCall.stream calls := by
  induction calls using List.reverseRecOn with
  | nil => rfl
  | append_singleton calls call inductionHypothesis =>
      rw [ofCalls_concat, text_add, inductionHypothesis]
      simp [SerialCall.stream]

/-- Whether no newline is in a line or in the open line. -/
def IsUnbroken (printed : Printed) : Prop :=
  (∀ line ∈ printed.lines, '\n' ∉ line.toList) ∧ '\n' ∉ printed.pending.toList

/-- Texts without newlines make unbroken lines. -/
theorem isUnbroken_ofCalls
    {calls : List SerialCall}
    (unbroken : ∀ call ∈ calls, '\n' ∉ call.text.toList) :
    (ofCalls calls).IsUnbroken := by
  induction calls using List.reverseRecOn with
  | nil => exact ⟨by simp [ofCalls], by simp [ofCalls]⟩
  | append_singleton calls call inductionHypothesis =>
      have last : '\n' ∉ call.text.toList := unbroken call (by simp)
      obtain ⟨lines, pending⟩ :=
        inductionHypothesis fun other member => unbroken other (by simp [member])
      have joined : '\n' ∉ ((ofCalls calls).pending ++ call.text).toList := by
        simp [pending, last]
      rw [ofCalls_concat, add]
      cases call.ends with
      | true =>
          refine ⟨?_, by simp⟩
          intro line member
          rcases List.mem_append.mp member with earlier | isLast
          · exact lines line earlier
          · rw [List.mem_singleton.mp isLast]
            exact joined
      | false => exact ⟨lines, joined⟩

/-- The complete lines of the text of unbroken lines are these lines. -/
theorem completeLines_text
    {printed : Printed}
    (unbroken : printed.IsUnbroken) :
    completeLines printed.text = printed.lines := by
  obtain ⟨lines, pending⟩ := printed
  obtain ⟨unbrokenLines, unbrokenPending⟩ := unbroken
  unfold completeLines
  induction lines with
  | nil =>
      have whole : (text ⟨[], pending⟩).toList = pending.toList := by simp [text]
      rw [whole, List.splitOn_eq_singleton unbrokenPending]
      rfl
  | cons line lines inductionHypothesis =>
      obtain ⟨unbrokenLine, unbrokenOthers⟩ := List.forall_mem_cons.mp unbrokenLines
      have whole :
          (text ⟨line :: lines, pending⟩).toList =
            line.toList ++ '\n' :: (text ⟨lines, pending⟩).toList := by
        simp [text, String.toList_join]
      rw [whole, List.splitOn_append_cons_self_of_not_mem unbrokenLine,
        List.dropLast_cons_of_ne_nil (List.splitOn_ne_nil _ _), List.map_cons,
        String.ofList_toList, inductionHypothesis unbrokenOthers unbrokenPending]

end Printed

namespace World

/-- A printing call emits the line that it ends. -/
theorem serialLines_print
    (world : World)
    (call : SerialCall) :
    (world.print call).host.serialLines =
      world.host.serialLines ++
        if call.ends then [world.board.pendingLine ++ call.text] else [] := by
  unfold print
  cases call.ends with
  | true => exact Host.serialLines_emit_line _ _
  | false => exact (List.append_nil _).symm

theorem pendingLine_print
    (world : World)
    (call : SerialCall) :
    (world.print call).board.pendingLine =
      if call.ends then "" else world.board.pendingLine ++ call.text := by
  unfold print
  cases call.ends <;> rfl

end World

namespace Machine.State

variable {state : State}

/-- The events that the next step tells the host. -/
def told (state : State) : List Event :=
  state.step.world.host.events.toList.drop state.world.host.events.size

theorem events_step (state : State) :
    state.step.world.host.events.toList = state.world.host.events.toList ++ state.told := by
  obtain ⟨world, effects, sameBoard, sameEvents⟩ := state.transition_step.effects
  have grown : state.world.host.events.toList <+: state.step.world.host.events.toList := by
    rw [sameEvents]
    exact effects.events_prefix
  exact (List.prefix_iff_eq_append.mp grown).symm

theorem serialLines_step (state : State) :
    state.step.world.host.serialLines =
      state.world.host.serialLines ++ Event.serialLines state.told := by
  unfold Host.serialLines Event.serialLines
  rw [events_step, List.filterMap_append]

/-- The events told by the visited states come after what the host has been told before. -/
theorem events_advance
    (state : State)
    (steps : Nat) :
    (state.advance steps).world.host.events.toList =
      state.world.host.events.toList ++ (visited steps state).flatMap told := by
  induction steps generalizing state with
  | zero => exact (List.append_nil _).symm
  | succ steps inductionHypothesis =>
      cases paused : state.paused with
      | true =>
          obtain ⟨none, same⟩ := visited_of_paused paused (steps + 1)
          rw [none, same]
          exact (List.append_nil _).symm
      | false =>
          obtain ⟨first, onward⟩ := visited_of_running paused steps
          rw [first, onward, inductionHypothesis, events_step, List.flatMap_cons,
            List.append_assoc]

/-- What the states before a state have printed: the lines told, and the line that waits. -/
def Prints (past : List State) (state : State) : Prop :=
  Printed.ofCalls (past.filterMap serialCall?) =
    ⟨Event.serialLines (past.flatMap told), state.world.board.pendingLine⟩

namespace Prints

variable {past : List State}

theorem concat_silent
    (prints : Prints past state)
    (silent : state.serialCall? = none)
    (sameLines : state.step.world.host.serialLines = state.world.host.serialLines)
    (samePending : state.step.world.board.pendingLine = state.world.board.pendingLine) :
    Prints (past ++ [state]) state.step := by
  have noLine : Event.serialLines state.told = [] :=
    List.self_eq_append_right.mp (sameLines.symm.trans state.serialLines_step)
  have sameCalls : (past ++ [state]).filterMap serialCall? = past.filterMap serialCall? := by
    rw [List.filterMap_append, List.filterMap_cons_none silent, List.filterMap_nil,
      List.append_nil]
  have sameTold :
      Event.serialLines ((past ++ [state]).flatMap told) =
        Event.serialLines (past.flatMap told) := by
    rw [List.flatMap_append, List.flatMap_singleton, Event.serialLines,
      List.filterMap_append]
    exact (congrArg _ noLine).trans (List.append_nil _)
  unfold Prints
  rw [sameCalls, sameTold, samePending]
  exact prints

theorem concat_call
    {call : SerialCall}
    (prints : Prints past state)
    (calls : state.serialCall? = some call)
    (printed : state.step.world = state.world.print call) :
    Prints (past ++ [state]) state.step := by
  have lines := state.serialLines_step
  rw [printed, World.serialLines_print, List.append_cancel_left_eq] at lines
  have moreCalls :
      (past ++ [state]).filterMap serialCall? = past.filterMap serialCall? ++ [call] := by
    rw [List.filterMap_append, List.filterMap_cons_some calls, List.filterMap_nil]
  have moreTold :
      Event.serialLines ((past ++ [state]).flatMap told) =
        Event.serialLines (past.flatMap told) ++
          if call.ends then [state.world.board.pendingLine ++ call.text] else [] := by
    rw [List.flatMap_append, List.flatMap_singleton, Event.serialLines,
      List.filterMap_append, lines]
    rfl
  unfold Prints at *
  rw [moreCalls, moreTold, Printed.ofCalls_concat, prints, printed,
    World.pendingLine_print, Printed.add]
  cases call.ends <;> simp

/-- The lines told are those that are printed, at every moment of a run. -/
theorem lasting : Lasting Prints where
  step {past state} prints := by
    obtain ⟨micros, pauses, silent, passed⟩ | ⟨call, noPause, calls, printed⟩ |
      ⟨noPause, silent, steady⟩ := state.world_step_cases
    · exact prints.concat_silent silent (by rw [passed]; rfl) (by rw [passed]; rfl)
    · exact prints.concat_call calls printed
    · exact prints.concat_silent silent steady.serialLines steady.pendingLine
  attach host resting prints := prints
  wake host resting prints := prints

end Prints

end Machine.State

namespace Chronicle

variable {config : Config} {chronicle : Chronicle}

/-- What a poll tells its host is told by the states visited in it. -/
theorem told_poll
    (told : chronicle.told = chronicle.states.flatMap State.told)
    (host : Host) :
    (chronicle.poll config host).told =
      (chronicle.poll config host).states.flatMap State.told := by
  have added :
      (chronicle.run.poll config host).2.2.events.toList.drop host.events.size =
        (chronicle.run.visited config host).flatMap State.told := by
    cases resumed : chronicle.run.resume? config host with
    | none =>
        obtain ⟨result, phase, log, polled, others⟩ := Run.poll_of_no_resume resumed
        rw [polled, Run.visited, resumed]
        exact List.drop_length
    | some state =>
        have sameEvents : state.world.host.events = host.events := by
          obtain ⟨source, program, log, fresh, rfl⟩ | ⟨kept, rests, rfl⟩ :=
            Run.resume?_cases resumed
          · rfl
          · rfl
        have shown := (chronicle.run.settle_shown (state.goOn config)).1
        rw [Run.poll_of_resume resumed, shown, Run.visited, resumed, State.goOn,
          State.events_advance, sameEvents]
        exact List.drop_left
  change
    chronicle.told ++ (chronicle.run.poll config host).2.2.events.toList.drop host.events.size =
      (chronicle.states ++ chronicle.run.visited config host).flatMap State.told
  rw [added, told, List.flatMap_append]

theorem told_follow
    (told : chronicle.told = chronicle.states.flatMap State.told)
    (hosts : List Host) :
    (chronicle.follow config hosts).told =
      (chronicle.follow config hosts).states.flatMap State.told := by
  induction hosts generalizing chronicle with
  | nil => exact told
  | cons host later inductionHypothesis => exact inductionHypothesis (told_poll told host)

/--
At every moment of a run the serial lines told so far are those that its printing calls
have ended: the calls of `println` that succeed, each with what was printed before it and
not ended yet.  The lines, with a newline after each, and the text that waits are the
printed stream; so if no printed text contains a newline, the lines told are exactly the
complete lines of the stream.
-/
theorem serial_lines_printed
    (config : Config)
    (generation : UInt64)
    (source : String)
    (hosts : List Host)
    (moment : Nat) :
    let chronicle := (start generation source).follow config hosts
    let past := chronicle.states.take moment
    let calls := past.filterMap State.serialCall?
    let lines := Event.serialLines (past.flatMap State.told)
    chronicle.told = chronicle.states.flatMap State.told ∧
      lines = (Printed.ofCalls calls).lines ∧
      (Printed.ofCalls calls).text = SerialCall.stream calls ∧
      ((∀ call ∈ calls, '\n' ∉ call.text.toList) →
        lines = completeLines (SerialCall.stream calls)) := by
  intro chronicle past calls lines
  have course := course config generation source hosts
  have printed : lines = (Printed.ofCalls calls).lines := by
    change Course _ _ _ chronicle.states at course
    rw [← chronicle.states.take_append_drop moment] at course
    obtain none | ⟨state, prints⟩ :=
      course.behind State.Prints.lasting fun program host parsed => rfl
    · change Event.serialLines (past.flatMap State.told) =
        (Printed.ofCalls (past.filterMap State.serialCall?)).lines
      rw [show past = [] from none]
      rfl
    · exact (congrArg Printed.lines prints).symm
  have stream : (Printed.ofCalls calls).text = SerialCall.stream calls :=
    Printed.text_ofCalls calls
  refine ⟨told_follow rfl hosts, printed, stream, ?_⟩
  intro unbroken
  rw [← stream, Printed.completeLines_text (Printed.isUnbroken_ofCalls unbroken)]
  exact printed

/-- Two printing calls make one line, and a delay does not come between. -/
theorem serial_lines_printed_around_delay :
    let hosts := [⟨true, .empty, #[], #[]⟩, ⟨true, .empty, #[], #[]⟩]
    let chronicle :=
      (start 1 "Serial.print(1);\ndelay(5);\nSerial.println(\"b\");").follow
        ⟨1, none, .grb, 1000⟩ hosts
    let past := chronicle.states.take 1000
    let calls := past.filterMap State.serialCall?
    Event.serialLines (past.flatMap State.told) = ["1b"] ∧
      Event.serialLines (past.flatMap State.told) =
        completeLines (SerialCall.stream calls) := by
  intro hosts chronicle past calls
  obtain ⟨unbroken, told⟩ :
      (∀ call ∈ calls, '\n' ∉ call.text.toList) ∧
        Event.serialLines (past.flatMap State.told) = ["1b"] := by
    decide +kernel
  exact ⟨told,
    (serial_lines_printed ⟨1, none, .grb, 1000⟩ 1 _ hosts 1000).2.2.2 unbroken⟩

/-- The lines told are not always complete lines: a printed text may contain a newline. -/
theorem serial_line_with_newline :
    ¬ ∀ (config : Config) (generation : UInt64) (source : String) (hosts : List Host)
        (moment : Nat),
      let chronicle := (start generation source).follow config hosts
      let past := chronicle.states.take moment
      let calls := past.filterMap State.serialCall?
      Event.serialLines (past.flatMap State.told) =
        completeLines (SerialCall.stream calls) := by
  intro complete
  have told :=
    complete ⟨1, none, .grb, 1000⟩ 1 "Serial.println(\"a\\nb\");" [⟨true, .empty, #[], #[]⟩]
      1000
  revert told
  decide +kernel

end Chronicle

end LedSketch
