import LedSketch.Proofs.Machine.Atomic
import LedSketch.Proofs.Machine.Steady
import LedSketch.Proofs.Simulation.Outcome
import Mathlib.Algebra.GroupWithZero.Nat

namespace LedSketch

/-!
# Virtual time

The clock of a run shows the sum of its pauses.  A run comes to rest once for each pause
and once after each call of `loop`, and for nothing else.
-/

open Script
open Machine (State Transition Lasting)

namespace Native

/-- A native function suspends a run only for a pause. -/
theorem pause?_of_suspend
    {world after : World}
    {builtin : Builtin}
    {arguments : List Value}
    (suspended : runIn world (callBuiltin builtin arguments) = (.ok .suspend, after)) :
    ∃ micros, pause? builtin arguments = some micros := by
  obtain ⟨suspends, clock, moved⟩ := clock_of_suspend suspended
  cases given : Arguments.int arguments 0 with
  | ok amount =>
      unfold pause?
      rw [given]
      cases builtin with
      | delay | delayMicroseconds => exact ⟨_, rfl⟩
      | _ => contradiction
  | error fault =>
      cases builtin with
      | delay | delayMicroseconds =>
          simp only [callBuiltin, runIn_bind] at suspended
          rw [given] at suspended
          cases suspended
      | _ => contradiction

end Native

namespace Machine

/-- Whether a run rests until its next poll. -/
def Control.rests : Control → Bool
  | .suspended => true
  | _ => false

theorem Control.rests_of_isPlain
    {control : Control}
    (plain : control.isPlain = true) :
    control.rests = false := by
  cases control <;> first | rfl | contradiction

/-- A step that calls nothing native brings a run to rest after a call of `loop`. -/
theorem Transition.iterations_of_not_native
    {state next : State}
    (transition : Transition state next)
    (running : state.paused = false)
    (notNative : state.control.isNative = false) :
    next.iterations = state.iterations + next.control.rests.toNat := by
  have stays
      {control : Control}
      (same : state.control = control)
      (notAtRest : control.rests = false) :
      state.iterations = state.iterations + state.control.rests.toNat := by
    rw [same, notAtRest]
    rfl
  cases transition with
  | rest paused =>
      rw [running] at paused
      contradiction
  | work plain onward | take plain top plainFrame onward =>
      rw [Control.rests_of_isPlain onward.control]
      exact onward.iterations
  | native plain effects onward called | delay line plain effects called =>
      rw [notNative] at called
      contradiction
  | unwind scopes depth raised | handlerFails raised => exact stays raised rfl
  | clickIgnored selecting => exact stays selecting rfl
  | _ => rfl

/-- A run finishes with the number of calls of `loop` that have completed. -/
theorem Transition.iterations_of_finished
    {state next : State}
    {iterations : Nat}
    (transition : Transition state next)
    (running : state.paused = false)
    (finished : next.control = .halted (.finished iterations)) :
    next.iterations = iterations := by
  have notPlain (plain : next.control.isPlain = true) : False := by
    rw [finished] at plain
    contradiction
  cases transition with
  | rest paused =>
      rw [running] at paused
      contradiction
  | work plain onward | take plain top plainFrame onward | native plain effects onward =>
      exact (notPlain onward.control).elim
  | loopMissing | iterationsDone | finishes =>
      cases finished
      rfl
  | @fails interrupt raised empty => cases interrupt <;> cases finished
  | unwind scopes depth raised | handlerFails raised => cases raised.symm.trans finished
  | clickIgnored selecting => cases selecting.symm.trans finished
  | _ => cases finished

namespace State

variable {state : State}

/-- The pauses among the steps made in some states. -/
def pauses (states : List State) : List Nat := states.filterMap pause?

theorem iterations_callNative
    (state : State)
    (builtin : Builtin)
    (arguments : List Value)
    (line : Nat) :
    (state.callNative builtin arguments line).iterations = state.iterations ∧
      (state.callNative builtin arguments line).control.rests =
        (Native.pause? builtin arguments).isSome := by
  cases pauses : Native.pause? builtin arguments with
  | some micros =>
      unfold callNative
      rw [Native.runIn_of_pause state.world pauses]
      exact ⟨rfl, rfl⟩
  | none =>
      unfold callNative
      split
      · exact ⟨rfl, rfl⟩
      · next suspended =>
          obtain ⟨micros, found⟩ := Native.pause?_of_suspend suspended
          rw [pauses] at found
          contradiction
      · exact ⟨rfl, rfl⟩

theorem iterations_stepInvoke
    (state : State)
    (handle : Handle)
    (name : String)
    (arguments : List Value)
    (line : Nat) :
    (state.stepInvoke (.object handle) name arguments line).iterations = state.iterations ∧
      (state.stepInvoke (.object handle) name arguments line).control.rests = false := by
  unfold stepInvoke
  dsimp only
  split <;> exact ⟨rfl, rfl⟩

/-- A step brings a run to rest for a pause or after a call of `loop`. -/
theorem iterations_step (running : state.paused = false) :
    state.step.iterations + (pauses [state]).length =
      state.iterations + state.step.control.rests.toNat := by
  cases native : state.control.isNative with
  | false =>
      have noPause := (calls_of_not_native native).1
      rw [pauses, List.filterMap_cons_none noPause]
      exact state.transition_step.iterations_of_not_native running native
  | true =>
      obtain ⟨builtin, arguments, line, called⟩ | ⟨handle, name, arguments, line, called⟩ :=
        native_cases native
      · have isPause : state.pause? = Native.pause? builtin arguments := by
          rw [pause?, called]
        obtain ⟨sameIterations, rests⟩ :=
          state.iterations_callNative builtin arguments line
        rw [step_of_callNative called, sameIterations, rests, ← isPause, pauses]
        cases pause : state.pause? with
        | none =>
            rw [List.filterMap_cons_none pause]
            rfl
        | some micros =>
            rw [List.filterMap_cons_some pause]
            rfl
      · have noPause : state.pause? = none := by rw [pause?, called]
        obtain ⟨sameIterations, awake⟩ :=
          state.iterations_stepInvoke handle name arguments line
        rw [step_of_invoke called, sameIterations, awake, pauses,
          List.filterMap_cons_none noPause]
        rfl

theorem rests_of_running (running : state.paused = false) : state.control.rests = false := by
  unfold paused at running
  cases control : state.control with
  | suspended =>
      rw [control] at running
      contradiction
  | _ => rfl

theorem length_pauses_append (earlier later : List State) :
    (pauses (earlier ++ later)).length = (pauses earlier).length + (pauses later).length := by
  rw [pauses, List.filterMap_append, List.length_append]
  rfl

/-- On the way to its next rest a run pauses once, or ends a call of `loop`, or neither. -/
theorem iterations_advance
    (running : state.paused = false)
    (steps : Nat) :
    (state.advance steps).iterations + (pauses (visited steps state)).length =
      state.iterations + (state.advance steps).control.rests.toNat := by
  induction steps generalizing state with
  | zero =>
      change state.iterations + 0 = state.iterations + state.control.rests.toNat
      rw [rests_of_running running]
      rfl
  | succ steps inductionHypothesis =>
      obtain ⟨first, onward⟩ := visited_of_running running steps
      have made := iterations_step running
      rw [first, onward, ← List.singleton_append, length_pauses_append]
      cases paused : state.step.paused with
      | true =>
          obtain ⟨none, same⟩ := visited_of_paused paused steps
          rw [none, same]
          exact made
      | false =>
          have later := inductionHypothesis paused
          rw [rests_of_running paused] at made
          change _ = state.iterations + 0 at made
          omega

theorem iterations_of_finished
    {iterations : Nat}
    (running : state.paused = false)
    (steps : Nat)
    (finished : (state.advance steps).control = .halted (.finished iterations)) :
    (state.advance steps).iterations = iterations := by
  induction steps generalizing state with
  | zero =>
      rw [paused, show state.control = _ from finished] at running
      contradiction
  | succ steps inductionHypothesis =>
      rw [(visited_of_running running steps).2] at finished ⊢
      cases paused : state.step.paused with
      | true =>
          rw [(visited_of_paused paused steps).2] at finished ⊢
          exact state.transition_step.iterations_of_finished running finished
      | false => exact inductionHypothesis paused finished

/-- Whether the next step calls a native function. -/
def calls
    (builtin : Builtin)
    (state : State) :
    Bool :=
  match state.control with
  | .call (.builtin called) _ _ => called = builtin
  | _ => false

theorem step_of_calls
    {builtin : Builtin}
    (called : state.calls builtin = true) :
    ∃ arguments line, state.step = state.callNative builtin arguments line := by
  unfold calls at called
  split at called
  · next other arguments line control =>
      obtain rfl := of_decide_eq_true called
      exact ⟨arguments, line, step_of_callNative control⟩
  · contradiction

/-- The time that has passed in some states. -/
def elapsed (states : List State) : Nat := (pauses states).sum

/-- The clock of a run shows the time that has passed in the states before. -/
theorem lasting_elapsed :
    Lasting fun past state => state.world.board.clock.elapsedMicros = elapsed past where
  step {past state} shown := by
    have passed : elapsed (past ++ [state]) = elapsed past + (pauses [state]).sum := by
      rw [elapsed, pauses, List.filterMap_append, List.sum_append]
      rfl
    rw [passed, ← shown, pauses]
    obtain ⟨micros, isPause, silent, moved⟩ | ⟨call, noPause, calls, printed⟩ |
      ⟨noPause, silent, steady⟩ := state.world_step_cases
    · rw [moved, List.filterMap_cons_some isPause]
      rfl
    · rw [printed, List.filterMap_cons_none noPause]
      unfold World.print
      split <;> rfl
    · rw [steady.clock, List.filterMap_cons_none noPause]
      rfl
  attach host resting shown := shown
  wake host resting shown := shown

end State

end Machine

/-- Whether a run has ended. -/
def Phase.isEnded : Phase → Bool
  | .ended _ => true
  | _ => false

/-- The number of calls of `loop` that a poll reports, if the run has finished. -/
def PollResult.finished? : PollResult → Option Nat
  | .ready (.finished iterations) => some iterations
  | _ => none

theorem PollResult.eq_of_finished?
    {result : PollResult}
    {iterations : Nat}
    (finished : result.finished? = some iterations) :
    result = .ready (.finished iterations) := by
  unfold finished? at finished
  split at finished
  · cases finished
    rfl
  · contradiction

namespace Run

variable {config : Config} {run : Run} {host : Host} {outcome : Outcome}

/-- A run that finishes in a poll has gone on in it. -/
theorem resume_of_finished
    {iterations : Nat}
    (going : run.phase.isEnded = false)
    (finished : (run.poll config host).1 = .ready (.finished iterations)) :
    ∃ state, run.resume? config host = some state := by
  cases resumed : run.resume? config host with
  | some state => exact ⟨state, rfl⟩
  | none =>
      have ended := ended_of_ready finished
      obtain same | ⟨fresh, failure, failed⟩ := phase_of_no_resume resumed
      · rw [same.symm.trans ended] at going
        contradiction
      · cases failed.symm.trans ended

end Run

namespace Chronicle

variable {config : Config} {chronicle : Chronicle} {polls : Nat}

/-- Before a run ends, it has had a poll for each pause and for each call of `loop`. -/
structure Paced (chronicle : Chronicle) (polls : Nat) : Prop where
  fresh :
    ∀ source, chronicle.run.phase = .fresh source → polls = 0 ∧ chronicle.states = []
  resting :
    ∀ kept, chronicle.run.phase = .suspended kept →
      kept.iterations + (State.pauses chronicle.states).length = polls

namespace Paced

/-- A poll in which a run goes on ends with its next pause or call of `loop`. -/
theorem resumed
    {host : Host}
    {state : State}
    (paced : chronicle.Paced polls)
    (resumed : chronicle.run.resume? config host = some state) :
    (state.goOn config).iterations +
        (State.pauses (chronicle.poll config host).states).length =
      polls + (state.goOn config).control.rests.toNat := by
  have soFar : state.iterations + (State.pauses chronicle.states).length = polls := by
    obtain ⟨source, program, log, fresh, rfl⟩ | ⟨kept, rests, rfl⟩ :=
      Run.resume?_cases resumed
    · obtain ⟨noPoll, noState⟩ := paced.fresh source fresh
      rw [noState, noPoll]
      rfl
    · exact paced.resting kept rests
  have added :
      (chronicle.poll config host).states =
        chronicle.states ++
          State.visited (config.stepBudget + state.stack.length + 2) state := by
    change chronicle.states ++ chronicle.run.visited config host = _
    rw [Run.visited, resumed]
  have made :=
    State.iterations_advance (Run.running_of_resume resumed)
      (config.stepBudget + state.stack.length + 2)
  rw [added, State.length_pauses_append]
  unfold State.goOn
  omega

theorem poll
    (paced : chronicle.Paced polls)
    (host : Host) :
    (chronicle.poll config host).Paced (polls + 1) := by
  cases resumed : chronicle.run.resume? config host with
  | none =>
      obtain ⟨result, phase, log, polled, notPending, notResting, notFresh⟩ :=
        Run.poll_of_no_resume resumed
      have samePhase : (chronicle.poll config host).run.phase = phase := by
        change (chronicle.run.poll config host).2.1.phase = phase
        rw [polled]
      refine ⟨fun source fresh => ?_, fun kept rests => ?_⟩
      · exact (notFresh source (samePhase.symm.trans fresh)).elim
      · exact (notResting kept (samePhase.symm.trans rests)).elim
  | some state =>
      have settled :
          (chronicle.poll config host).run =
            (chronicle.run.settle (state.goOn config)).2.1 :=
        congrArg (fun polled => polled.2.1) (Run.poll_of_resume resumed)
      refine ⟨fun source fresh => ?_, fun kept rests => ?_⟩
      · rw [settled] at fresh
        exact (Run.settle_not_fresh _ _ source fresh).elim
      · rw [settled] at rests
        obtain ⟨atRest, rfl⟩ := Run.settle_suspended rests
        have ended := paced.resumed resumed
        rw [atRest] at ended
        exact ended

theorem follow
    (paced : chronicle.Paced polls)
    (hosts : List Host) :
    (chronicle.follow config hosts).Paced (polls + hosts.length) := by
  induction hosts generalizing chronicle polls with
  | nil => exact paced
  | cons host later inductionHypothesis =>
      rw [List.length_cons, Nat.add_comm later.length, ← Nat.add_assoc]
      exact inductionHypothesis (paced.poll host)

theorem start
    (generation : UInt64)
    (source : String) :
    (start generation source).Paced 0 where
  fresh _ _ := ⟨rfl, rfl⟩
  resting _ rests := nomatch rests

end Paced

/--
Whenever a run asks for the time, the answer is the sum of the pauses it has made so far,
in microseconds or, rounded down, in milliseconds; it is exact while it fits into 64 bits.
A run that finishes has been polled once, and once more for every completed call of
`loop` and for every pause.
-/
theorem time_is_sum_of_pauses
    (config : Config)
    (generation : UInt64)
    (source : String)
    (hosts : List Host) :
    let chronicle := (start generation source).follow config hosts
    (∀ past state,
      chronicle.Moment past state →
      let passed := State.elapsed past
      (state.calls .micros = true →
        ∃ shown : Int64,
          state.step.control = .value (.int shown) ∧
            shown = Int64.ofNat passed ∧ (passed < 2 ^ 63 → shown.toInt = passed)) ∧
      (state.calls .millis = true →
        ∃ shown : Int64,
          state.step.control = .value (.int shown) ∧
            shown = Int64.ofNat (passed / 1000) ∧
            (passed < 2 ^ 63 → shown.toInt = (passed / 1000 : Nat)))) ∧
      ∀ host iterations,
        chronicle.run.phase.isEnded = false →
        (chronicle.run.poll config host).1 = .ready (.finished iterations) →
        hosts.length + 1 =
          1 + iterations + (State.pauses (chronicle.poll config host).states).length := by
  intro chronicle
  refine ⟨?_, ?_⟩
  · intro past state moment passed
    have shown : state.world.board.clock.elapsedMicros = passed :=
      moment.lasting State.lasting_elapsed fun program host parsed => rfl
    have exactly {time : Nat} (fits : time < 2 ^ 63) : (Int64.ofNat time).toInt = time :=
      Int64.toInt_ofNat_of_lt fits
    refine ⟨fun asked => ⟨_, ?_, rfl, exactly⟩, fun asked => ⟨_, ?_, rfl, fun fits => ?_⟩⟩
    · obtain ⟨arguments, line, stepped⟩ := State.step_of_calls asked
      rw [stepped, ← shown]
      rfl
    · obtain ⟨arguments, line, stepped⟩ := State.step_of_calls asked
      rw [stepped, ← shown]
      rfl
    · exact exactly (Nat.lt_of_le_of_lt (Nat.div_le_self passed 1000) fits)
  · intro host iterations going finished
    obtain ⟨state, resumed⟩ := Run.resume_of_finished going finished
    have paced : chronicle.Paced (0 + hosts.length) := (Paced.start generation source).follow hosts
    have made := paced.resumed resumed
    have ended := Run.ended_of_ready finished
    rw [Run.poll_of_resume resumed] at ended
    have halted := Run.settle_ended ended
    have counted : (state.goOn config).iterations = iterations :=
      State.iterations_of_finished (Run.running_of_resume resumed) _ halted
    rw [halted, counted] at made
    change _ = 0 + hosts.length + 0 at made
    omega

/-- A sketch that waits once in its one call of `loop` is polled three times. -/
theorem time_is_sum_of_one_pause :
    ∃ (config : Config) (host : Host) (chronicle : Chronicle) (past : List State)
      (state : State) (shown : Int64),
      chronicle =
          (start 1 "function loop()\x7bdelay(5);micros();\x7d").follow config [host, host] ∧
        chronicle.Moment past state ∧ state.calls .micros = true ∧
        state.step.control = .value (.int shown) ∧ shown.toInt = 5000 ∧
        (chronicle.run.poll config host).1 = .ready (.finished 1) ∧
        2 + 1 = 1 + 1 + (State.pauses (chronicle.poll config host).states).length := by
  let config : Config := ⟨1, some 1, .grb, 1000⟩
  let host : Host := ⟨true, .empty, #[], #[]⟩
  let sketch := "function loop()\x7bdelay(5);micros();\x7d"
  have applied := time_is_sum_of_pauses config 1 sketch [host, host]
  obtain ⟨asked, passed, going, finishes⟩ :
      ((start 1 sketch).follow config [host, host]).states[37]?.any (State.calls .micros) =
          true ∧
        State.elapsed (((start 1 sketch).follow config [host, host]).states.take 37) = 5000 ∧
        ((start 1 sketch).follow config [host, host]).run.phase.isEnded = false ∧
        (((start 1 sketch).follow config [host, host]).run.poll config host).1.finished? =
          some 1 := by
    decide +kernel
  -- From here on the run stands for itself, so that nothing makes it go through its steps.
  generalize made : (start 1 sketch).follow config [host, host] = chronicle at *
  obtain ⟨readings, count⟩ := applied
  obtain ⟨state, found, calls⟩ := (Option.any_eq_true _ _).mp asked
  have moment : chronicle.Moment (chronicle.states.take 37) state := .of_getElem? found
  obtain ⟨shown, given, wrapped, exactly⟩ := (readings _ state moment).1 calls
  have fits : State.elapsed (chronicle.states.take 37) < 2 ^ 63 := by
    rw [passed]
    decide
  have shows : shown.toInt = 5000 := (exactly fits).trans (congrArg Nat.cast passed)
  have finished := PollResult.eq_of_finished? finishes
  exact ⟨config, host, chronicle, _, state, shown, made.symm, moment, calls, given, shows,
    finished, count host 1 going finished⟩

end Chronicle

end LedSketch
