import LedSketch.Proofs.Native.Effect

namespace LedSketch

/-!
# Time and the serial line

Only the delays move the clock of a run, and only the two printing methods of the serial
line touch its pending text or emit a line.
-/

open Script

/-- The text of a serial line, if an event is one. -/
def Event.serialLine? : Event → Option String
  | .serialLine text => some text
  | _ => none

/-- The serial lines that a host has been told. -/
def Host.serialLines (host : Host) : List String :=
  host.events.toList.filterMap Event.serialLine?

namespace Host

variable {host : Host} {event : Event}

/-- A line is added behind those that have been printed. -/
theorem serialLines_emit_line
    (host : Host)
    (text : String) :
    (host.emit (.serialLine text)).serialLines = host.serialLines ++ [text] := by
  simp [serialLines, emit, Event.serialLine?]

/-- Another event adds no line. -/
theorem serialLines_emit_other
    (host : Host)
    (other : event.serialLine? = none) :
    (host.emit event).serialLines = host.serialLines := by
  simp [serialLines, emit, other]

end Host

/-- What changes neither the clock nor the serial line. -/
structure Steady (world changed : World) : Prop where
  clock : changed.board.clock = world.board.clock
  pendingLine : changed.board.pendingLine = world.board.pendingLine
  serialLines : changed.host.serialLines = world.host.serialLines

namespace Steady

variable {world between changed : World}

theorem refl (world : World) : Steady world world := ⟨rfl, rfl, rfl⟩

/-- What is steady twice is steady. -/
theorem trans
    (earlier : Steady world between)
    (later : Steady between changed) :
    Steady world changed :=
  ⟨later.clock.trans earlier.clock, later.pendingLine.trans earlier.pendingLine,
    later.serialLines.trans earlier.serialLines⟩

end Steady

namespace Native

variable {α β : Type}

/-- A call that changes neither the clock nor the serial line. -/
def IsSteady (call : Native α) : Prop :=
  ∀ world, Steady world (runIn world call).2

namespace IsSteady

theorem pure (result : α) : IsSteady (pure result) := fun world => .refl world

/-- A call that fails is steady. -/
theorem throw (fault : CallFault) : IsSteady (throw fault : Native α) :=
  fun world => .refl world

/-- To look at the world is steady. -/
theorem get : IsSteady get := fun world => .refl world

theorem checkLive : IsSteady checkLive := by
  intro world
  rw [runIn_checkLive]
  exact .refl world

/-- To compute a strip is steady, whether it succeeds or not. -/
theorem ofStrip (computed : Except StripError α) : IsSteady (ofStrip computed) := by
  intro world
  rw [runIn_ofStrip]
  exact .refl world

/-- Calls one after the other are steady, if both are. -/
theorem bind
    {call : Native α}
    {next : α → Native β}
    (first : IsSteady call)
    (later : ∀ result, IsSteady (next result)) :
    IsSteady (call >>= next) :=
  related_runIn_bind .trans first later

/-- A change of the board is steady, if clock and pending line stay. -/
theorem modifyBoard
    {change : Board → Board}
    (steady :
      ∀ board,
        (change board).clock = board.clock ∧
          (change board).pendingLine = board.pendingLine) :
    IsSteady (modifyBoard change) :=
  fun world => ⟨(steady world.board).1, (steady world.board).2, rfl⟩

/-- What the host is told is steady, if it is no line. -/
theorem modifyHost
    {change : Host → Host}
    (serialLines : ∀ host, (change host).serialLines = host.serialLines) :
    IsSteady (modifyHost change) :=
  fun world => ⟨rfl, rfl, serialLines world.host⟩

/-- A new strip prints nothing and takes no time. -/
theorem createStrip
    (pixelCount pin : Int64)
    (order : ColorOrder) :
    IsSteady (createStrip pixelCount pin order) := by
  refine checkLive.bind fun _ => ?_
  split
  · exact throw _
  · refine (ofStrip _).bind fun strip => get.bind fun world => ?_
    refine bind (modifyBoard fun board => ?_) fun _ => ?_
    · exact ⟨rfl, rfl⟩
    · refine bind (modifyHost fun host => ?_) fun _ => pure _
      exact Host.serialLines_emit_other _ rfl

/-- To look for a strip is steady. -/
theorem strip (id : Nat) : IsSteady (strip id) := by
  refine checkLive.bind fun _ => get.bind fun world => ?_
  split
  · exact pure _
  · exact throw _

/-- To change a strip prints nothing and takes no time. -/
theorem changeStrip
    (id : Nat)
    (change : Strip → Except StripError Strip) :
    IsSteady (changeStrip id change) :=
  (strip id).bind fun _ => (ofStrip _).bind fun _ => modifyBoard fun _ => ⟨rfl, rfl⟩

/-- A frame is no line. -/
theorem showStrip (id : Nat) : IsSteady (showStrip id) :=
  (strip id).bind fun _ => modifyHost fun host => host.serialLines_emit_other rfl

/-- A new button prints nothing and takes no time. -/
theorem createButton (label : String) : IsSteady (createButton label) := by
  refine checkLive.bind fun _ => get.bind fun world => ?_
  refine bind (modifyBoard fun board => ?_) fun _ => ?_
  · exact ⟨rfl, rfl⟩
  · refine bind (modifyHost fun host => ?_) fun _ => pure _
    exact Host.serialLines_emit_other _ rfl

/-- To set a handler prints nothing and takes no time. -/
theorem setHandler
    (id : Nat)
    (handler : Value) :
    IsSteady (setHandler id handler) := by
  refine get.bind fun world => ?_
  split
  · exact modifyBoard fun _ => ⟨rfl, rfl⟩
  · exact throw _

theorem randomBetween (low high : Int64) : IsSteady (randomBetween low high) :=
  fun _ => ⟨rfl, rfl, rfl⟩

theorem seedRandom (seed : UInt64) : IsSteady (seedRandom seed) :=
  fun _ => ⟨rfl, rfl, rfl⟩

theorem makeArray (items : Array Value) : IsSteady (makeArray items) :=
  fun _ => ⟨rfl, rfl, rfl⟩

/-- The calls that let no time pass and print nothing are steady. -/
theorem compositional :
    BasicCompositionalFor (fun _ => True) fun {_} call _ => IsSteady call where
  plain _ _ := trivial
  pure _ := pure _
  throw := throw
  next := bind
  answer made := made.bind fun _ => pure _
  readBoard _ _ := get.bind fun _ => pure _
  display _ := get.bind fun _ => pure _
  checkLive := checkLive
  createStrip := createStrip
  strip := strip
  changeStrip id change _ := changeStrip id change
  showStrip := showStrip
  createButton := createButton
  setHandler id handler _ _ := setHandler id handler
  randomBetween := randomBetween
  seedRandom := seedRandom
  makeArray _ := makeArray _

end IsSteady

/-- How many microseconds a call of a native function lets pass, if it suspends the run. -/
def pause?
    (builtin : Builtin)
    (arguments : List Value) :
    Option Nat :=
  match builtin, Arguments.int arguments 0 with
  | .delay, .ok amount => some (amount.toInt.toNat * 1000)
  | .delayMicroseconds, .ok amount => some amount.toInt.toNat
  | _, _ => none

/-- A pause moves the clock, changes nothing else, and suspends the run. -/
theorem runIn_of_pause
    {builtin : Builtin}
    {arguments : List Value}
    {micros : Nat}
    (world : World)
    (pauses : pause? builtin arguments = some micros) :
    runIn world (callBuiltin builtin arguments) =
      (.ok .suspend,
        { world with
          board := { world.board with
            clock := ⟨world.board.clock.elapsedMicros + micros⟩ } }) := by
  unfold pause? at pauses
  split at pauses
  · next amount given =>
      cases pauses
      simp only [callBuiltin, runIn_bind]
      rw [given]
      rfl
  · next amount given =>
      cases pauses
      simp only [callBuiltin, runIn_bind]
      rw [given]
      rfl
  · contradiction

/-- A native function that makes no pause is steady. -/
theorem steady_of_no_pause
    {builtin : Builtin}
    {arguments : List Value}
    (world : World)
    (noPause : pause? builtin arguments = none) :
    Steady world (runIn world (callBuiltin builtin arguments)).2 := by
  cases suspends : builtin.suspends with
  | false => exact IsSteady.compositional.callBuiltin arguments suspends world
  | true =>
      cases given : Arguments.int arguments 0 with
      | ok amount =>
          unfold pause? at noPause
          rw [given] at noPause
          cases builtin <;> contradiction
      | error fault =>
          cases builtin with
          | delay | delayMicroseconds =>
              simp only [callBuiltin, runIn_bind]
              rw [given]
              exact .refl world
          | _ => contradiction

/-- A method that does not print is steady. -/
theorem steady_callMethod
    {handle : Handle}
    {name : String}
    (world : World)
    (silent : handle = .serial → name ≠ "print" ∧ name ≠ "println")
    (arguments : List Value) :
    Steady world (runIn world (callMethod handle name arguments)).2 := by
  have law := IsSteady.compositional
  cases handle with
  | strip id => exact law.callStrip id name arguments world
  | button id => exact law.callButton (fun _ _ => trivial) id name world
  | serial => exact law.callSerial (silent rfl).1 (silent rfl).2 arguments world
  | neoPixel => exact law.callNeoPixel name arguments world

end Native

end LedSketch
