import LedSketch.Host.World

namespace LedSketch

/-!
# Native calls

A native call reads and changes the world, and returns a result or a fault.  The
calls that reach something shared fail in a run that is no longer current.
-/

/-- A native call. -/
abbrev Native (α : Type) := ExceptT Script.CallFault (StateM World) α

namespace Native

/-- Run a native call in a world. -/
def runIn
    (world : World)
    (call : Native α) :
    Except Script.CallFault α × World :=
  call.run.run world

/-- The result of a computation that may find a wrong type. -/
def ofType : Except Script.TypeFault α → Native α
  | .ok result => pure result
  | .error fault => throw (.type fault)

/-- The result of a computation that a strip may refuse. -/
def ofStrip : Except StripError α → Native α
  | .ok result => pure result
  | .error error => throw (.strip error)

/-- The result of a computation that may fault. -/
def ofCall : Except Script.CallFault α → Native α
  | .ok result => pure result
  | .error fault => throw fault

/-- Change the board. -/
def modifyBoard (change : Board → Board) : Native Unit :=
  modify fun world => { world with board := change world.board }

/-- Change what is shared with the host. -/
def modifyHost (change : Host → Host) : Native Unit :=
  modify fun world => { world with host := change world.host }

/-- Fail unless the run is the current one. -/
def checkLive : Native Unit := do
  if (← get).host.live then
    return
  else
    throw .superseded

/-- The text of a value. -/
def display (value : Script.Value) : Native String := do
  return (← get).heap.display value

/-- Register a strip and announce it. -/
def createStrip
    (pixelCount pin : Int64)
    (order : ColorOrder) :
    Native Nat := do
  checkLive
  if pixelCount.toInt < 0 then
    throw (.strip (.negativePixelCount pixelCount.toInt))
  let count := pixelCount.toInt.toNat
  let strip ← ofStrip (Strip.create count pin order)
  let id := (← get).board.strips.size
  modifyBoard fun board => { board with strips := board.strips.push strip }
  modifyHost fun host =>
    (host.record (.stripCreated id count pin order)).emit (.stripCreated id pin count)
  return id

/-- A registered strip. -/
def strip (id : Nat) : Native Strip := do
  checkLive
  match (← get).board.strips[id]? with
  | some strip => return strip
  | none => throw (.type (.unknownStrip id))

/-- Put a registered strip back after a change. -/
def putStrip
    (id : Nat)
    (strip : Strip) :
    Native Unit :=
  modifyBoard fun board =>
    { board with strips := board.strips.setIfInBounds id strip }

/-- Change a registered strip; a refused change leaves it as it is. -/
def changeStrip
    (id : Nat)
    (change : Strip → Except StripError Strip) :
    Native Unit := do
  let old ← strip id
  let changed ← ofStrip (change old)
  putStrip id changed

/-- Show the current frame of a strip. -/
def showStrip (id : Nat) : Native Unit := do
  let shown ← strip id
  modifyHost fun host => host.emit (.frameShown id shown.frame)

/-- Register a button and announce it. -/
def createButton (label : String) : Native Nat := do
  checkLive
  let id := (← get).board.buttons.size
  modifyBoard fun board =>
    { board with buttons := board.buttons.push ⟨label, none⟩ }
  modifyHost fun host =>
    (host.record (.buttonCreated id label)).emit (.buttonCreated id label)
  return id

/-- Set the handler of a button; this reaches nothing shared. -/
def setHandler
    (id : Nat)
    (handler : Script.Value) :
    Native Unit := do
  if id < (← get).board.buttons.size then
    modifyBoard fun board =>
      { board with
        buttons := board.buttons.modify id fun button =>
          { button with handler := some handler } }
  else
    throw (.type (.unknownButton id))

/-- Append to the pending serial line. -/
def print (text : String) : Native Unit := do
  checkLive
  modifyBoard fun board => { board with pendingLine := board.pendingLine ++ text }

/-- Complete the pending serial line and emit it. -/
def printLine (text : String) : Native Unit := do
  checkLive
  let line := (← get).board.pendingLine ++ text
  modifyBoard fun board => { board with pendingLine := "" }
  modifyHost fun host => (host.record (.serialLine line)).emit (.serialLine line)

/-- A random integer from `low` up to but not including `high`. -/
def randomBetween (low high : Int64) : Native Int64 := do
  let (drawn, random) := Random.between low.toInt high.toInt (← get).board.random
  modifyBoard fun board => { board with random }
  return Int64.ofInt drawn

/-- Start the random numbers anew. -/
def seedRandom (seed : UInt64) : Native Unit :=
  modifyBoard fun board => { board with random := .ofSeed seed }

/-- Let time pass. -/
def passTime (pass : Clock → Clock) : Native Unit :=
  modifyBoard fun board => { board with clock := pass board.clock }

/-- Make an array. -/
def makeArray (items : Array Script.Value) : Native Nat := do
  let world ← get
  let (id, heap) := world.heap.allocate items
  set { world with heap }
  return id

end Native

end LedSketch
