import LedSketch.Proofs.Machine.Stale
import LedSketch.Proofs.Native.Atomic

namespace LedSketch

/-!
# Atomic calls of a running program

A call of a native function or method that stops the program has left the world as it
was.  Only a delay can suspend a run: it has moved the clock by then, and if the run was
superseded in the meantime, the call ends without any other change.
-/

open Script

namespace Native

variable {α : Type}

/-- A call that never asks to be suspended. -/
def Returns (call : Native Response) : Prop :=
  ∀ world after, runIn world call ≠ (.ok .suspend, after)

namespace Returns

theorem pure (value : Value) : Returns (pure (.value value)) := by
  intro world after suspended
  cases suspended

theorem after
    {call : Native α}
    {next : α → Native Response}
    (later : ∀ result, Returns (next result)) :
    Returns (call >>= next) := by
  intro world after suspended
  rw [runIn_bind] at suspended
  split at suspended
  · next result between ran => exact later result between after suspended
  · cases suspended

theorem value (call : Native Value) : Returns (do return .value (← call)) :=
  after fun _ => pure _

end Returns

/-- A native function asks to be suspended only after it has moved the clock. -/
theorem clock_of_suspend
    {world after : World}
    {builtin : Builtin}
    {arguments : List Value}
    (suspended : runIn world (callBuiltin builtin arguments) = (.ok .suspend, after)) :
    builtin.suspends = true ∧
      ∃ clock, after = { world with board := { world.board with clock } } := by
  have impossible (returns : Returns (callBuiltin builtin arguments)) : False :=
    returns world after suspended
  cases builtin with
  | delay | delayMicroseconds =>
      simp only [callBuiltin, runIn_bind] at suspended
      cases amount : Arguments.int arguments 0 with
      | error fault =>
          rw [amount] at suspended
          cases suspended
      | ok amount =>
          rw [amount] at suspended
          cases suspended
          exact ⟨rfl, _, rfl⟩
  | createStrip | createButton | random | abs | array =>
      exact (impossible (.value _)).elim
  | millis | micros | sqrt | sin | cos => exact (impossible (.after fun _ => .pure _)).elim
  | randomSeed | pow =>
      exact (impossible (.after fun _ => .after fun _ => .pure _)).elim
  | min | max | constrain | map => exact (impossible (.after fun _ => .value _)).elim

end Native

namespace Machine.State

variable {state : State} {builtin : Builtin} {arguments : List Value} {line : Nat}

/-- How the call of a native function ends: with a value, a suspension, or a fault. -/
theorem callNative_cases
    (state : State)
    (builtin : Builtin)
    (arguments : List Value)
    (line : Nat) :
    (∃ value, (state.callNative builtin arguments line).control = .value value) ∨
      (builtin.suspends = true ∧
        ∃ clock,
          state.callNative builtin arguments line =
            (state.withWorld
              { state.world with board := { state.world.board with clock } }).into
              (.delayEnd line) .suspended) ∨
      ∃ fault, state.callNative builtin arguments line = state.stop (.ofCall line fault) := by
  unfold callNative
  split
  · exact .inl ⟨_, rfl⟩
  · next suspended =>
      obtain ⟨suspends, clock, rfl⟩ := Native.clock_of_suspend suspended
      exact .inr (.inl ⟨suspends, clock, rfl⟩)
  · next fault world failed =>
      obtain rfl := Native.Atomic.callBuiltin builtin arguments _ _ _ failed
      exact .inr (.inr ⟨fault, rfl⟩)

/-- A method that does not give a value stops the program and changes nothing. -/
theorem stepInvoke_cases
    (state : State)
    (handle : Handle)
    (name : String)
    (arguments : List Value)
    (line : Nat) :
    (∃ value,
        (state.stepInvoke (.object handle) name arguments line).control = .value value) ∨
      ∃ fault,
        state.stepInvoke (.object handle) name arguments line =
          state.stop (.ofCall line fault) := by
  unfold stepInvoke
  dsimp only
  split
  · exact .inl ⟨_, rfl⟩
  · next fault world failed =>
      obtain rfl := Native.Atomic.callMethod handle name arguments _ _ _ failed
      exact .inr ⟨fault, rfl⟩

/--
Where the call of a native function or method stops the program, the world is exactly as
it was before the call.  Where a call suspends the run, it is a delay that has moved the
clock and nothing else; and when it goes on, with whatever the host has become, it can stop
the program only because the run is superseded, and again leaves the world as it is.
-/
theorem native_calls_atomic
    (state : State)
    (arguments : List Value)
    (line : Nat) :
    (∀ builtin interrupt,
      let called := (state.goto (.call (.builtin builtin) arguments line)).step
      called.control = .raise interrupt →
      called.world = state.world) ∧
    (∀ handle name interrupt,
      let called := (state.goto (.invoke (.object handle) name arguments line)).step
      called.control = .raise interrupt →
      called.world = state.world) ∧
    ∀ builtin,
      let called := (state.goto (.call (.builtin builtin) arguments line)).step
      called.control = .suspended →
      builtin.suspends = true ∧
        ∃ clock,
          let board := { state.world.board with clock }
          called.world = { state.world with board } ∧
          ∀ host interrupt,
            let resumed := ((called.attach .detached).wake host).step
            resumed.control = .raise interrupt →
            interrupt = .superseded ∧ host.live = false ∧
              resumed.world = ⟨state.world.heap, board, host⟩ := by
  refine ⟨fun builtin interrupt => ?_, fun handle name interrupt => ?_, fun builtin => ?_⟩
  · intro called stopped
    change (callNative _ builtin arguments line).control = _ at stopped
    change (callNative _ builtin arguments line).world = _
    obtain ⟨value, given⟩ | ⟨_, clock, suspended⟩ | ⟨fault, failed⟩ :=
      callNative_cases (state.goto (.call (.builtin builtin) arguments line)) builtin arguments line
    · rw [given] at stopped
      cases stopped
    · rw [suspended] at stopped
      cases stopped
    · rw [failed]
      rfl
  · intro called stopped
    change (stepInvoke _ (.object handle) name arguments line).control = _ at stopped
    change (stepInvoke _ (.object handle) name arguments line).world = _
    obtain ⟨value, given⟩ | ⟨fault, failed⟩ :=
      stepInvoke_cases (state.goto (.invoke (.object handle) name arguments line)) handle name
        arguments line
    · rw [given] at stopped
      cases stopped
    · rw [failed]
      rfl
  · intro called paused
    obtain ⟨value, given⟩ | ⟨suspends, clock, suspended⟩ | ⟨fault, failed⟩ :=
      callNative_cases (state.goto (.call (.builtin builtin) arguments line)) builtin arguments line
    · cases given.symm.trans paused
    · refine ⟨suspends, clock, congrArg State.world suspended, fun host interrupt => ?_⟩
      intro resumed stopped
      have isResumed : resumed = ((called.attach .detached).wake host).step := rfl
      have isCalled : called = _ := suspended
      rw [isCalled, step_of_value rfl rfl] at isResumed
      unfold stepValue at isResumed
      dsimp only at isResumed
      split at isResumed
      · rw [isResumed] at stopped
        cases stopped
      · next stale =>
          rw [isResumed] at stopped ⊢
          cases stopped
          exact ⟨rfl, Bool.eq_false_iff.mpr stale, rfl⟩
    · cases (congrArg State.control failed).symm.trans paused

end Machine.State

end LedSketch
