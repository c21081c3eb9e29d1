import LedSketch.Machine.Step
import LedSketch.Native.Bindings
import LedSketch.Script.Parser
import LedSketch.Sketch.Lowering

namespace LedSketch

/-!
# Runs

A run is one sketch on its way: not begun, suspended somewhere, or ended.  A
poll lets it go on until it suspends or ends, and changes only the run itself and
what it shares with its host.
-/

/-- What is the same for every run of a simulator. -/
structure Config where
  seed : UInt64
  limit : Option Nat
  defaultOrder : ColorOrder
  /--
  How many steps a poll makes before it gives up waiting for the run, not counting
  those that it takes to leave what is open already.
  -/
  stepBudget : Nat

/-- How far a run has come. -/
inductive Phase where
  | fresh (source : String)
  /-- At rest until the next poll, and not attached to a host. -/
  | suspended (state : Machine.State)
  | ended (outcome : Outcome)
  /-- A poll has given up waiting; no later poll hears of the run again. -/
  | lost

/-- A run with the generation it was started in. -/
structure Run where
  generation : UInt64
  phase : Phase

/-- What a poll tells its caller. -/
inductive PollResult where
  | pending
  | ready (outcome : Outcome)
  /-- The run neither suspended nor ended within the step budget. -/
  | overBudget

namespace Machine.State

/-- The state at the start of a program. -/
def begin
    (config : Config)
    (program : Script.Program)
    (host : Host) :
    State where
  control := .enterBlock program.body
  stack := [.topLevel]
  scopes := .ofBindings Native.bindings
  world := ⟨.empty, .create config.seed config.defaultOrder, host⟩
  depth := 0
  dispatching := false
  nextBirth := 0
  iterations := 0
  limit := config.limit

/-- The state with what is shared with the host as it is now. -/
def attach
    (state : State)
    (host : Host) :
    State :=
  state.withWorld { state.world with host }

/-- The state that goes on after a suspension, with the host as it is now. -/
def wake
    (state : State)
    (host : Host) :
    State :=
  (state.attach host).give .undefined

/-- Make steps until the run is paused, but at most so many. -/
def advance : Nat → State → State
  | 0, state => state
  | steps + 1, state => if state.paused then state else advance steps state.step

/--
Let a run go on within the budget of a poll.  Each open frame allows one step more,
so that a run which only has to leave its frames always gets to its end.
-/
def goOn
    (config : Config)
    (state : State) :
    State :=
  advance (config.stepBudget + state.stack.length + 2) state

/-- What a poll tells about a state it has stopped in. -/
def pollResult (state : State) : PollResult :=
  match state.control with
  | .suspended => .pending
  | .halted outcome => .ready outcome
  | _ => .overBudget

end Machine.State

namespace Run

/-- The run after a poll that stopped in a state, and the entry that its end makes. -/
def settle
    (run : Run)
    (state : Machine.State) :
    PollResult × Run × Host :=
  let host := state.world.host
  match state.pollResult with
  | .ready outcome =>
      (.ready outcome, { run with phase := .ended outcome },
        host.record (.ended run.generation.toNat outcome))
  | .pending => (.pending, { run with phase := .suspended (state.attach .detached) }, host)
  | .overBudget => (.overBudget, { run with phase := .lost }, host)

/-- The host after the log entries of a conversion. -/
def recordLowering
    (host : Host)
    (applied : List Sketch.Application)
    (notes : List Sketch.Note) :
    Host :=
  let entries :=
    applied.map (fun application =>
      LogEntry.substitutions application.rule.name application.count) ++
      notes.map LogEntry.note
  { host with log := host.log ++ entries.toArray }

/-- The first poll of a run: convert the sketch, parse the script and begin. -/
def begin
    (config : Config)
    (run : Run)
    (source : String)
    (host : Host) :
    PollResult × Run × Host :=
  let sketch := source.toList
  let applied := Sketch.lowerings sketch
  let lowered := Sketch.loweredBy sketch applied
  let host := recordLowering host applied lowered.notes
  match Script.parse lowered.text with
  | .error error =>
      let outcome : Outcome := .failed (.evaluation error)
      (.ready outcome, { run with phase := .ended outcome },
        host.record (.ended run.generation.toNat outcome))
  | .ok program =>
      run.settle ((Machine.State.begin config program host).goOn config)

/-- Let a run go on until it suspends or ends. -/
def poll
    (config : Config)
    (run : Run)
    (host : Host) :
    PollResult × Run × Host :=
  match run.phase with
  | .fresh source => run.begin config source host
  | .suspended state => run.settle ((state.wake host).goOn config)
  | .ended outcome => (.ready outcome, run, host)
  | .lost => (.overBudget, run, host)

end Run

end LedSketch
