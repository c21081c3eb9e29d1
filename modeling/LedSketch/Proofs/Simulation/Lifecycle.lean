import LedSketch.Proofs.Machine.Seats
import LedSketch.Proofs.Simulation.Chronicle

namespace LedSketch

/-!
# Lifecycle of a run

A run executes its top level, then calls `setup` once if there is one, and then calls
`loop` again and again, as often as its limit says.
-/

open Script (Value Interrupt)
open Machine (State Seated Stays Leaves Milestone Lasting)

/-- The milestones of a run until it looks for `loop`. -/
def opening (setup : Option Value) : List Milestone :=
  .programEnded ::
    match setup with
    | some setup => [.setupCalled setup, .setupReturned]
    | none => [.setupMissing]

/-- The milestones of some calls of `loop`. -/
def turns
    (main : Value)
    (calls : Nat) :
    List Milestone :=
  (List.replicate calls [Milestone.loopCalled main, .loopReturned]).flatten

/-- The milestones of a run that calls `setup` and `loop`, if there are any. -/
def lifecycle
    (setup main : Option Value)
    (calls : Nat) :
    List Milestone :=
  opening setup ++
    match main with
    | some main => .loopFound main :: turns main calls
    | none => [.loopMissing]

/-- How many calls of `loop` a finished run has made. -/
def Phase.finished? : Phase → Option Nat
  | .ended (.finished calls) => some calls
  | _ => none

theorem Phase.eq_of_finished?
    {phase : Phase}
    {calls : Nat}
    (finished : phase.finished? = some calls) :
    phase = .ended (.finished calls) := by
  unfold finished? at finished
  split at finished
  · rw [Option.some.inj finished]
  · contradiction

/-- Whether a number of calls is within a limit, if there is one. -/
def WithinLimit
    (limit : Option Nat)
    (calls : Nat) :
    Prop :=
  ∀ most, limit = some most → calls ≤ most

theorem turns_succ
    (main : Value)
    (calls : Nat) :
    turns main (calls + 1) = turns main calls ++ [.loopCalled main, .loopReturned] := by
  unfold turns
  rw [List.replicate_succ', List.flatten_append]
  rfl

/-- One more call of `loop` adds two milestones. -/
theorem lifecycle_succ
    (setup : Option Value)
    (main : Value)
    (calls : Nat) :
    lifecycle setup (some main) (calls + 1) =
      lifecycle setup (some main) calls ++ [.loopCalled main, .loopReturned] := by
  simp [lifecycle, turns_succ]

/-- The milestones passed so far are the first ones of a lifecycle within the limit. -/
def Foreseen
    (limit : Option Nat)
    (passed : List Milestone) :
    Prop :=
  ∃ setup main calls, passed <+: lifecycle setup main calls ∧ WithinLimit limit calls

/-- How far a run has come, with the milestones that it has passed. -/
inductive Reached (limit : Option Nat) : List Milestone → State → Prop where
  | program
      {state : State}
      (seated : Seated .topLevel state)
      (noCall : state.iterations = 0) :
      Reached limit [] state
  | beforeSetup
      {state : State}
      (asks : state.control = .findSetup)
      (alone : state.stack = [])
      (noCall : state.iterations = 0) :
      Reached limit [.programEnded] state
  | setup
      {state : State}
      (setup : Value)
      (seated : Seated .setupCall state)
      (noCall : state.iterations = 0) :
      Reached limit [.programEnded, .setupCalled setup] state
  | beforeLoop
      {state : State}
      (setup : Option Value)
      (asks : state.control = .findLoop)
      (alone : state.stack = [])
      (noCall : state.iterations = 0) :
      Reached limit (opening setup) state
  | loopTop
      {state : State}
      {calls : Nat}
      (setup : Option Value)
      (main : Value)
      (asks : state.control = .loopTop main)
      (alone : state.stack = [])
      (counted : state.iterations = calls)
      (within : WithinLimit limit calls) :
      Reached limit (lifecycle setup (some main) calls) state
  | beforeCall
      {state : State}
      {calls : Nat}
      (setup : Option Value)
      (main : Value)
      (seated : Seated (.dispatchBeforeLoop main) state)
      (counted : state.iterations = calls)
      (within : WithinLimit limit (calls + 1)) :
      Reached limit (lifecycle setup (some main) calls) state
  | inCall
      {state : State}
      {calls : Nat}
      (setup : Option Value)
      (main : Value)
      (seated : Seated (.loopCall main) state)
      (counted : state.iterations = calls)
      (within : WithinLimit limit (calls + 1)) :
      Reached limit (lifecycle setup (some main) calls ++ [.loopCalled main]) state
  | afterCall
      {state : State}
      {calls : Nat}
      (setup : Option Value)
      (main : Value)
      (seated : Seated (.iterationEnd main) state)
      (counted : state.iterations = calls)
      (within : WithinLimit limit calls) :
      Reached limit (lifecycle setup (some main) calls) state
  | leaving
      {state : State}
      {passed : List Milestone}
      {interrupt : Interrupt}
      (raised : state.control = .raise interrupt)
      (alone : state.stack = [])
      (foreseen : Foreseen limit passed) :
      Reached limit passed state
  | ended
      {state : State}
      {passed : List Milestone}
      {outcome : Outcome}
      (halted : state.control = .halted outcome)
      (foreseen : Foreseen limit passed)
      (complete :
        ∀ calls, outcome = .finished calls →
          ∃ setup main,
            passed = lifecycle setup main calls ∧
              (main = none → calls = 0) ∧ (main ≠ none → limit = some calls)) :
      Reached limit passed state

section LimitReached

variable {limit : Option Nat} {calls : Nat} {state : State}

/-- A run that may not go on has made all of its calls. -/
theorem limit_of_limitReached
    (sameLimit : state.limit = limit)
    (counted : state.iterations = calls)
    (within : WithinLimit limit calls)
    (reached : state.limitReached = true) :
    limit = some calls := by
  unfold State.limitReached at reached
  rw [sameLimit, counted] at reached
  cases limit with
  | none => contradiction
  | some most =>
      have all : most ≤ calls := of_decide_eq_true reached
      rw [Nat.le_antisymm all (within most rfl)]

/-- A run that may go on has a call left. -/
theorem within_of_not_limitReached
    (sameLimit : state.limit = limit)
    (counted : state.iterations = calls)
    (allowed : ¬ state.limitReached = true) :
    WithinLimit limit (calls + 1) := by
  intro most limited
  unfold State.limitReached at allowed
  rw [sameLimit, counted, limited] at allowed
  exact Nat.lt_of_not_le fun reached => allowed (decide_eq_true reached)

end LimitReached

namespace Reached

variable {limit : Option Nat} {passed : List Milestone} {state : State}

theorem foreseen (reached : Reached limit passed state) : Foreseen limit passed := by
  have noneYet : WithinLimit limit 0 := fun most _ => Nat.zero_le most
  cases reached with
  | program => exact ⟨none, none, 0, List.nil_prefix, noneYet⟩
  | beforeSetup => exact ⟨none, none, 0, ⟨_, rfl⟩, noneYet⟩
  | setup setup => exact ⟨some setup, none, 0, ⟨_, rfl⟩, noneYet⟩
  | beforeLoop setup => exact ⟨setup, none, 0, ⟨_, rfl⟩, noneYet⟩
  | loopTop setup main asks alone counted within =>
      exact ⟨setup, some main, _, List.prefix_refl _, within⟩
  | beforeCall setup main seated counted within =>
      refine ⟨setup, some main, _, List.prefix_refl _, ?_⟩
      exact fun most limited => Nat.le_of_succ_le (within most limited)
  | inCall setup main seated counted within =>
      refine ⟨setup, some main, _, ?_, within⟩
      rw [lifecycle_succ]
      exact (List.prefix_append_right_inj _).mpr ⟨[.loopReturned], rfl⟩
  | afterCall setup main seated counted within =>
      exact ⟨setup, some main, _, List.prefix_refl _, within⟩
  | leaving raised alone foreseen => exact foreseen
  | ended halted foreseen => exact foreseen

/-- With its next step a run comes on in its lifecycle, by the milestone that the step passes. -/
def Advances
    (limit : Option Nat)
    (passed : List Milestone)
    (state : State) :
    Prop :=
  state.step.limit = limit ∧ Reached limit (passed ++ state.milestone?.toList) state.step

/-- While the run stays at work for a seat, it passes no milestone. -/
theorem stays
    {seat : Machine.Frame}
    (stays : Stays seat state)
    (sameLimit : state.limit = limit)
    (reached : Reached limit passed state.step) :
    Advances limit passed state := by
  unfold Advances
  rw [stays.milestone, Option.toList_none, List.append_nil]
  exact ⟨stays.limit.trans sameLimit, reached⟩

/-- A run that an interrupt ends has passed the milestones until then. -/
theorem leaves
    (leaves : Leaves state)
    (sameLimit : state.limit = limit)
    (foreseen : Foreseen limit passed) :
    Advances limit passed state := by
  obtain ⟨interrupt, raised⟩ := leaves.raised
  unfold Advances
  rw [leaves.milestone, Option.toList_none, List.append_nil]
  exact ⟨leaves.limit.trans sameLimit, .leaving raised leaves.alone foreseen⟩

/-- At work for a seat that waits for a value, only that value brings the run further. -/
theorem awaits
    {seat : Machine.Frame}
    (seated : Seated seat state)
    (notTop : seat ≠ .topLevel)
    (sameLimit : state.limit = limit)
    (foreseen : Foreseen limit passed)
    (still :
      ∀ next, Seated seat next → next.iterations = state.iterations → Reached limit passed next)
    (given :
      ∀ value, state.control = .value value → state.stack = [seat] →
        Advances limit passed state) :
    Advances limit passed state := by
  obtain here | left | ⟨value, isGiven, alone⟩ := seated.call_cases notTop
  · exact stays here sameLimit (still _ here.seated here.iterations)
  · exact leaves left sameLimit foreseen
  · exact given value isGiven alone

theorem advances_findSetup
    (asks : state.control = .findSetup)
    (alone : state.stack = [])
    (noCall : state.iterations = 0)
    (sameLimit : state.limit = limit) :
    Advances limit [.programEnded] state := by
  have stepped : state.step = state.stepFindSetup := by rw [State.step, asks]
  unfold Advances State.milestone?
  rw [stepped, State.stepFindSetup, asks]
  cases state.entryPoint? "setup" with
  | none => exact ⟨sameLimit, .beforeLoop none rfl alone noCall⟩
  | some setup =>
      have seated :
          Seated .setupCall (state.into .setupCall (.call setup [] 0)) :=
        ⟨rfl, ⟨[], congrArg _ alone, by simp⟩, rfl⟩
      exact ⟨sameLimit, .setup setup seated noCall⟩

theorem advances_findLoop
    (setup : Option Value)
    (asks : state.control = .findLoop)
    (alone : state.stack = [])
    (noCall : state.iterations = 0)
    (sameLimit : state.limit = limit) :
    Advances limit (opening setup) state := by
  have stepped : state.step = state.stepFindLoop := by rw [State.step, asks]
  have noneYet : WithinLimit limit 0 := fun most _ => Nat.zero_le most
  unfold Advances State.milestone?
  rw [stepped, State.stepFindLoop, asks]
  cases state.entryPoint? "loop" with
  | none =>
      refine ⟨sameLimit, .ended rfl ⟨setup, none, 0, List.prefix_refl _, noneYet⟩ ?_⟩
      intro calls finished
      cases finished
      exact ⟨setup, none, by rw [noCall]; rfl, fun _ => noCall,
        fun bound => (bound rfl).elim⟩
  | some main =>
      have found :
          opening setup ++ [.loopFound main] = lifecycle setup (some main) 0 := rfl
      refine ⟨sameLimit, ?_⟩
      change Reached limit (opening setup ++ [.loopFound main]) _
      rw [found]
      exact .loopTop setup main rfl alone noCall noneYet

/-- Before each turn of `loop` the run looks whether it is current, and then at the limit. -/
theorem advances_loopTop
    {calls : Nat}
    (setup : Option Value)
    (main : Value)
    (asks : state.control = .loopTop main)
    (alone : state.stack = [])
    (counted : state.iterations = calls)
    (within : WithinLimit limit calls)
    (sameLimit : state.limit = limit) :
    Advances limit (lifecycle setup (some main) calls) state := by
  have stepped : state.step = state.stepLoopTop main := by rw [State.step, asks]
  have passes : state.milestone? = none := by
    rw [State.milestone?, asks]
  have foreseen : Foreseen limit (lifecycle setup (some main) calls) :=
    ⟨setup, some main, calls, List.prefix_refl _, within⟩
  unfold Advances
  rw [stepped, passes, Option.toList_none, List.append_nil]
  unfold State.stepLoopTop
  split
  · split
    · next reached =>
        have all := limit_of_limitReached sameLimit counted within reached
        refine ⟨sameLimit, .ended rfl foreseen ?_⟩
        intro iterations finished
        cases finished
        rw [counted]
        exact ⟨setup, some main, rfl, fun isNone => (Option.some_ne_none _ isNone).elim,
          fun _ => all⟩
    · next allowed =>
        have another := within_of_not_limitReached sameLimit counted allowed
        exact ⟨sameLimit, .beforeCall setup main
          ⟨rfl, ⟨[], congrArg _ alone, by simp⟩, rfl⟩ counted another⟩
  · exact ⟨sameLimit, .leaving rfl alone foreseen⟩

theorem step
    (reached : Reached limit passed state)
    (sameLimit : state.limit = limit) :
    Advances limit passed state := by
  have foreseen := reached.foreseen
  cases reached with
  | program seated noCall =>
      obtain still | left | ⟨completed, alone⟩ := seated.topLevel_cases
      · exact stays still sameLimit (.program still.seated (still.iterations.trans noCall))
      · exact leaves left sameLimit foreseen
      · have passes : state.milestone? = some .programEnded := by
          rw [State.milestone?, completed, alone]
        rw [Advances, passes, State.step_of_flow completed alone]
        exact ⟨sameLimit, .beforeSetup rfl rfl noCall⟩
  | beforeSetup asks alone noCall => exact advances_findSetup asks alone noCall sameLimit
  | setup setup seated noCall =>
      refine awaits seated Machine.Frame.noConfusion sameLimit foreseen
        (fun _ seated same => .setup setup seated (same.trans noCall)) ?_
      intro value given alone
      have passes : state.milestone? = some .setupReturned := by
        rw [State.milestone?, given, alone]
      rw [Advances, passes, State.step_of_value given alone]
      exact ⟨sameLimit, .beforeLoop (some setup) rfl rfl noCall⟩
  | beforeLoop setup asks alone noCall =>
      exact advances_findLoop setup asks alone noCall sameLimit
  | loopTop setup main asks alone counted within =>
      exact advances_loopTop setup main asks alone counted within sameLimit
  | beforeCall setup main seated counted within =>
      refine awaits seated Machine.Frame.noConfusion sameLimit foreseen
        (fun _ seated same => .beforeCall setup main seated (same.trans counted) within) ?_
      intro value given alone
      have passes : state.milestone? = some (.loopCalled main) := by
        rw [State.milestone?, given, alone]
      rw [Advances, passes, State.step_of_value given alone]
      exact ⟨sameLimit, .inCall setup main ⟨rfl, ⟨[], rfl, by simp⟩, rfl⟩ counted within⟩
  | inCall setup main seated counted within =>
      refine awaits seated Machine.Frame.noConfusion sameLimit foreseen
        (fun _ seated same => .inCall setup main seated (same.trans counted) within) ?_
      intro value given alone
      have passes : state.milestone? = some .loopReturned := by
        rw [State.milestone?, given, alone]
      rw [Advances, passes, State.step_of_value given alone, List.append_assoc]
      change _ ∧ Reached limit (_ ++ [.loopCalled main, .loopReturned]) _
      rw [← lifecycle_succ]
      exact ⟨sameLimit, .afterCall setup main ⟨rfl, ⟨[], rfl, by simp⟩, rfl⟩
        (congrArg Nat.succ counted) within⟩
  | afterCall setup main seated counted within =>
      refine awaits seated Machine.Frame.noConfusion sameLimit foreseen
        (fun _ seated same => .afterCall setup main seated (same.trans counted) within) ?_
      intro value given alone
      have passes : state.milestone? = none := by
        rw [State.milestone?, given, alone]
      rw [Advances, passes, State.step_of_value given alone, Option.toList_none,
        List.append_nil]
      exact ⟨sameLimit, .loopTop setup main rfl rfl counted within⟩
  | @leaving _ _ interrupt raised alone =>
      have stepped : state.step = state.goto (.halted (.ofInterrupt interrupt)) := by
        rw [State.step, raised]
        dsimp only
        rw [alone]
      have passes : state.milestone? = none := by rw [State.milestone?, raised]
      rw [Advances, passes, stepped, Option.toList_none, List.append_nil]
      refine ⟨sameLimit, .ended rfl foreseen ?_⟩
      intro calls finished
      cases interrupt <;> cases finished
  | ended halted _ complete =>
      have stepped : state.step = state := by rw [State.step, halted]
      have passes : state.milestone? = none := by rw [State.milestone?, halted]
      rw [Advances, passes, stepped, Option.toList_none, List.append_nil]
      exact ⟨sameLimit, .ended halted foreseen complete⟩

/-- What has been reached stays so while the run rests, and when it wakes up. -/
theorem of_suspended
    {other : State}
    (reached : Reached limit passed state)
    (suspended : state.control = .suspended)
    (sameStack : other.stack = state.stack)
    (sameIterations : other.iterations = state.iterations)
    (notSeat : other.control.isSeat = false) :
    Reached limit passed other := by
  have reseated
      {seat : Machine.Frame}
      (seated : Seated seat state) :
      Seated seat other :=
    ⟨seated.isSeat, sameStack ▸ seated.stack, notSeat⟩
  cases reached with
  | program seated noCall => exact .program (reseated seated) (sameIterations.trans noCall)
  | setup setup seated noCall =>
      exact .setup setup (reseated seated) (sameIterations.trans noCall)
  | beforeCall setup main seated counted within =>
      exact .beforeCall setup main (reseated seated) (sameIterations.trans counted) within
  | inCall setup main seated counted within =>
      exact .inCall setup main (reseated seated) (sameIterations.trans counted) within
  | afterCall setup main seated counted within =>
      exact .afterCall setup main (reseated seated) (sameIterations.trans counted) within
  | beforeSetup asks | beforeLoop setup asks | loopTop setup main asks =>
      cases asks.symm.trans suspended
  | leaving raised => cases raised.symm.trans suspended
  | ended halted => cases halted.symm.trans suspended

/-- At every moment a run has reached some point of its lifecycle. -/
theorem lasting (limit : Option Nat) :
    Lasting fun past state =>
      state.limit = limit ∧ Reached limit (past.filterMap State.milestone?) state where
  step {past state} reached := by
    have more :
        (past ++ [state]).filterMap State.milestone? =
          past.filterMap State.milestone? ++ state.milestone?.toList := by
      rw [List.filterMap_append]
      cases passes : state.milestone? with
      | none => rw [List.filterMap_cons_none passes]; rfl
      | some milestone => rw [List.filterMap_cons_some passes]; rfl
    rw [more]
    exact reached.2.step reached.1
  attach {past state} host suspended reached := by
    have notSeat : state.control.isSeat = false := by rw [suspended]; rfl
    exact ⟨reached.1, reached.2.of_suspended suspended rfl rfl notSeat⟩
  wake host suspended reached :=
    ⟨reached.1, reached.2.of_suspended suspended rfl rfl rfl⟩

/-- What a run that has finished has passed. -/
theorem complete_of_finished
    {calls : Nat}
    (reached : Reached limit passed state)
    (finished : state.control = .halted (.finished calls)) :
    ∃ setup main,
      passed = lifecycle setup main calls ∧
        (main = none → calls = 0) ∧ (main ≠ none → limit = some calls) := by
  have seatless {seat : Machine.Frame} (seated : Seated seat state) : False := by
    have notSeat := seated.control
    rw [finished] at notSeat
    contradiction
  cases reached with
  | program seated => exact (seatless seated).elim
  | setup setup seated => exact (seatless seated).elim
  | beforeCall setup main seated => exact (seatless seated).elim
  | inCall setup main seated => exact (seatless seated).elim
  | afterCall setup main seated => exact (seatless seated).elim
  | beforeSetup asks | beforeLoop setup asks | loopTop setup main asks =>
      cases asks.symm.trans finished
  | leaving raised => cases raised.symm.trans finished
  | ended halted foreseen complete =>
      rw [halted] at finished
      cases finished
      exact complete calls rfl

theorem begin
    (config : Config)
    (program : Script.Program)
    (host : Host) :
    Reached config.limit [] (.begin config program host) :=
  .program ⟨rfl, ⟨[], rfl, by simp⟩, rfl⟩ rfl

end Reached

namespace Chronicle

/--
The milestones that a run passes are the first ones of a lifecycle: the top level ends,
`setup` is called once and returns if it is bound to a function then, and `loop`, if it is
bound to a function after that, is called again and again with that same value, at most as
often as the limit says.  A run that finishes has passed the whole of its lifecycle, with
as many calls of `loop` as it reports: the limit if there is a `loop`, and none otherwise.
-/
theorem lifecycle_followed
    (config : Config)
    (generation : UInt64)
    (source : String)
    (hosts : List Host) :
    let chronicle := (start generation source).follow config hosts
    let passed := chronicle.states.filterMap State.milestone?
    (∃ setup main calls,
      passed <+: lifecycle setup main calls ∧
        ∀ most, config.limit = some most → calls ≤ most) ∧
      (∀ calls,
        chronicle.run.phase = .ended (.finished calls) →
        ∃ setup main,
          passed = lifecycle setup main calls ∧
            (main = none → calls = 0) ∧ (main ≠ none → config.limit = some calls)) ∧
      ∀ state ∈ chronicle.states, ∀ milestone,
        state.milestone? = some milestone → milestone.Passed state := by
  intro chronicle passed
  have course := course config generation source hosts
  have began (program : Script.Program) (host : Host) (_ : Run.program? source = some program) :
      (State.begin config program host).limit = config.limit ∧
        Reached config.limit [] (.begin config program host) :=
    ⟨rfl, .begin config program host⟩
  refine ⟨?_, fun calls finished => ?_, fun _ _ _ passes => Milestone.passed passes⟩
  · have whole : Course config source chronicle.run.phase (chronicle.states ++ []) := by
      rw [List.append_nil]
      exact course
    obtain noStep | ⟨state, sameLimit, reached⟩ :=
      whole.behind (Reached.lasting config.limit) began
    · refine ⟨none, none, 0, ?_, fun most _ => Nat.zero_le most⟩
      have noneYet : passed = [] := congrArg (List.filterMap State.milestone?) noStep
      rw [noneYet]
      exact List.nil_prefix
    · exact reached.foreseen
  · change Course config source chronicle.run.phase chronicle.states at course
    rw [finished] at course
    obtain ⟨last, halted, sameLimit, reached⟩ :=
      course.at_end (Reached.lasting config.limit) began
    exact reached.complete_of_finished halted

/-- A sketch that calls `setup` and then twice `loop` passes eight milestones. -/
theorem lifecycle_followed_twice :
    ∃ (config : Config) (hosts : List Host) (chronicle : Chronicle) (setup main : Option Value),
      chronicle =
          (start 1 "function setup()\x7b\x7dfunction loop()\x7bdelay(5);\x7d").follow
            config hosts ∧
        chronicle.run.phase = .ended (.finished 2) ∧
        chronicle.states.filterMap State.milestone? = lifecycle setup main 2 ∧
        (chronicle.states.filterMap State.milestone?).length = 8 ∧
        (main = none → 2 = 0) ∧ (main ≠ none → config.limit = some 2) := by
  let config : Config := ⟨1, some 2, .grb, 1000⟩
  let host : Host := ⟨true, .empty, #[], #[]⟩
  let hosts := List.replicate 5 host
  let sketch := "function setup()\x7b\x7dfunction loop()\x7bdelay(5);\x7d"
  have applied := lifecycle_followed config 1 sketch hosts
  obtain ⟨finishes, eight⟩ :
      ((start 1 sketch).follow config hosts).run.phase.finished? = some 2 ∧
        (((start 1 sketch).follow config hosts).states.filterMap State.milestone?).length =
          8 := by
    decide +kernel
  -- From here on the run stands for itself, so that nothing makes it go through its steps.
  generalize made : (start 1 sketch).follow config hosts = chronicle at *
  have finished := Phase.eq_of_finished? finishes
  obtain ⟨setup, main, passed, without, limited⟩ := applied.2.1 2 finished
  exact ⟨config, hosts, chronicle, setup, main, made.symm, finished, passed, eight, without,
    limited⟩

end Chronicle

end LedSketch
