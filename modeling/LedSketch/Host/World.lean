import LedSketch.Board.ClickQueue
import LedSketch.Board.Clock
import LedSketch.Board.Random
import LedSketch.Host.Event
import LedSketch.Host.Log
import LedSketch.Script.Heap

namespace LedSketch

/-!
# The world of a run

A run owns its board and its arrays.  What it shares with its host are the click
queue, the events, the log, and the knowledge whether it is the current run.
-/

/-- A button with its handler, once one is set. -/
structure Button where
  label : String
  handler : Option Script.Value

/-- What a run owns besides its variables. -/
structure Board where
  clock : Clock
  random : Random
  defaultOrder : ColorOrder
  strips : Array Strip
  buttons : Array Button
  /-- The text printed since the last complete serial line. -/
  pendingLine : String

/-- The board of a run that has just started. -/
def Board.create
    (seed : UInt64)
    (defaultOrder : ColorOrder) :
    Board where
  clock := .start
  random := .ofSeed seed
  defaultOrder := defaultOrder
  strips := #[]
  buttons := #[]
  pendingLine := ""

/-- What a run shares with its host. -/
structure Host where
  /-- Whether no newer run has been started. -/
  live : Bool
  clicks : ClickQueue
  events : Array Event
  log : Array LogEntry

namespace Host

/-- What a run at rest shares: nothing. -/
def detached : Host := ⟨false, .empty, #[], #[]⟩

/-- Tell the host an event. -/
def emit
    (host : Host)
    (event : Event) :
    Host :=
  { host with events := host.events.push event }

/-- Add an entry to the log. -/
def record
    (host : Host)
    (entry : LogEntry) :
    Host :=
  { host with log := host.log.push entry }

end Host

/-- Everything that a native call can read or change. -/
structure World where
  heap : Script.Heap
  board : Board
  host : Host

end LedSketch
