import LedSketch.Simulation.Simulator

namespace LedSketch

/-!
# Sessions

A session is a simulator with runs kept under names, and a history of commands
that are carried out on them one after the other.
-/

/-- What can be done in a session. -/
inductive Command where
  | start (name source : String)
  | poll (name : String) (times : Nat)
  | press (button : Nat)
  | drop (name : String)
  deriving Repr, DecidableEq

/-- What a command answers. -/
inductive Answer where
  | started
  | polled (result : PollResult) (polls : Nat)
  | noSuchRun
  | queued
  /-- The queue has no place for a press of this button. -/
  | full (button : Nat)
  | dropped (existed : Bool)

/-- A simulator with the runs that are kept. -/
structure Session where
  simulator : Simulator
  runs : List (String × Run)

namespace Session

/-- A session that has not started a run. -/
def create (config : Config) : Session := ⟨.create config, []⟩

/-- The run kept under a name. -/
def run?
    (session : Session)
    (name : String) :
    Option Run :=
  (session.runs.find? fun entry => entry.1 = name).map Prod.snd

/-- The runs kept under other names. -/
def otherRuns
    (session : Session)
    (name : String) :
    List (String × Run) :=
  session.runs.filter fun entry => entry.1 ≠ name

/-- Whether a run is kept after a poll: until it is ready. -/
def keptAfter
    (name : String)
    (run : Run) :
    PollResult → List (String × Run)
  | .ready _ => []
  | _ => [(name, run)]

/-- Carry out a command. -/
def perform
    (session : Session)
    (command : Command) :
    Answer × Session :=
  match command with
  | .start name source =>
      let (run, simulator) := session.simulator.start source
      (.started, ⟨simulator, (name, run) :: session.otherRuns name⟩)
  | .poll name times =>
      match session.run? name with
      | none => (.noSuchRun, session)
      | some run =>
          let polled := Simulator.pollUpTo times session.simulator run
          (.polled polled.result polled.polls,
            ⟨polled.simulator,
              keptAfter name polled.run polled.result ++ session.otherRuns name⟩)
  | .press button =>
      match session.simulator.press? button with
      | some simulator => (.queued, { session with simulator })
      | none => (.full button, session)
  | .drop name =>
      (.dropped (session.run? name).isSome,
        { session with runs := session.otherRuns name })

end Session

end LedSketch
