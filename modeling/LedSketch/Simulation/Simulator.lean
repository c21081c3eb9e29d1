import LedSketch.Simulation.Run

namespace LedSketch

/-!
# Simulator

A simulator starts runs and keeps what they share.  At most one run is current:
starting a run makes every earlier one stale.
-/

/-- The shared state of all runs, with everything they have shown and reported. -/
structure Simulator where
  config : Config
  /-- The generation of the current run; zero before the first one. -/
  generation : UInt64
  clicks : ClickQueue
  events : Array Event
  log : Array LogEntry

namespace Simulator

/-- A simulator that has not started a run. -/
def create (config : Config) : Simulator where
  config := config
  generation := 0
  clicks := .empty
  events := #[]
  log := #[]

/-- Start a run, which makes earlier runs stale and forgets waiting clicks. -/
def start
    (simulator : Simulator)
    (source : String) :
    Run × Simulator :=
  let generation := simulator.generation + 1
  (⟨generation, .fresh source⟩,
    { simulator with
      generation
      clicks := .empty
      events := simulator.events.push .reset })

/-- What a run of a generation shares with the simulator. -/
def hostFor
    (simulator : Simulator)
    (generation : UInt64) :
    Host where
  live := simulator.generation = generation
  clicks := simulator.clicks
  events := simulator.events
  log := simulator.log

/-- The simulator after a poll has changed what is shared. -/
def takeBack
    (simulator : Simulator)
    (host : Host) :
    Simulator :=
  { simulator with
    clicks := host.clicks
    events := host.events
    log := host.log }

/-- Poll a run. -/
def poll
    (simulator : Simulator)
    (run : Run) :
    PollResult × Run × Simulator :=
  let (result, run, host) := run.poll simulator.config (simulator.hostFor run.generation)
  (result, run, simulator.takeBack host)

/-- Press a button, unless too many presses wait. -/
def press?
    (simulator : Simulator)
    (button : Nat) :
    Option Simulator :=
  (simulator.clicks.press? button).map fun clicks => { simulator with clicks }

/-- The result of several polls. -/
structure Polled where
  result : PollResult
  /-- The number of polls made. -/
  polls : Nat
  run : Run
  simulator : Simulator

/-- Poll a run until it is ready, but at most so many times. -/
def pollUpTo : Nat → Simulator → Run → Polled
  | 0, simulator, run => ⟨.pending, 0, run, simulator⟩
  | times + 1, simulator, run =>
      match simulator.poll run with
      | (.pending, run, simulator) =>
          let later := pollUpTo times simulator run
          { later with polls := later.polls + 1 }
      | (result, run, simulator) => ⟨result, 1, run, simulator⟩

end Simulator

end LedSketch
