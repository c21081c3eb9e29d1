import LedSketch.Proofs.Native.Call

namespace LedSketch.Native

/-!
# Atomic native calls

A native call that fails leaves the world as it was: everything that can refuse the call
comes before everything that changes the world.
-/

open Script

variable {α β : Type}

/-- A call that only looks at the world. -/
def Quiet (call : Native α) : Prop :=
  ∀ world, (runIn world call).2 = world

/-- A call that cannot fail. -/
def Sure (call : Native α) : Prop :=
  ∀ world, ∃ result after, runIn world call = (.ok result, after)

/-- A call that leaves the world as it was if it fails. -/
def Atomic (call : Native α) : Prop :=
  ∀ world fault after, runIn world call = (.error fault, after) → after = world

namespace Quiet

theorem pure (result : α) : Quiet (pure result) := fun _ => rfl

theorem throw (fault : CallFault) : Quiet (throw fault : Native α) := fun _ => rfl

theorem get : Quiet get := fun _ => rfl

/-- To ask for a type changes nothing, whether it is given or not. -/
theorem ofType (computed : Except TypeFault α) : Quiet (ofType computed) := by
  cases computed <;> exact fun _ => rfl

/-- A strip that is only computed changes nothing. -/
theorem ofStrip (computed : Except StripError α) : Quiet (ofStrip computed) := by
  cases computed <;> exact fun _ => rfl

theorem ofCall (computed : Except CallFault α) : Quiet (ofCall computed) := by
  cases computed <;> exact fun _ => rfl

/-- To look whether the run is current changes nothing. -/
theorem checkLive : Quiet checkLive := fun world => by rw [runIn_checkLive]

/-- Calls that only look at the world do so one after the other. -/
theorem bind
    {call : Native α}
    {next : α → Native β}
    (first : Quiet call)
    (later : ∀ result, Quiet (next result)) :
    Quiet (call >>= next) :=
  @related_runIn_bind α β (fun before after => after = before) call next
    (fun earlier same => same.trans earlier) first later

/-- To look up a strip changes nothing, also where there is none. -/
theorem strip (id : Nat) : Quiet (strip id) := by
  refine checkLive.bind fun _ => get.bind fun world => ?_
  split
  · exact pure _
  · exact throw _

theorem display (value : Value) : Quiet (display value) := get.bind fun _ => pure _

/-- A color order is read from the arguments, or from the board. -/
theorem orderArgument (arguments : List Value) : Quiet (orderArgument arguments) := by
  unfold Native.orderArgument
  split
  · exact get.bind fun _ => pure _
  · exact ofStrip _
  · exact throw _

/-- What is to be printed is put together before anything is printed. -/
theorem serialText (arguments : List Value) : Quiet (serialText arguments) := by
  unfold Native.serialText
  split
  · exact pure _
  · exact display _
  · refine (ofType _).bind fun _ => ?_
    split
    · exact pure _
    · exact pure _
    · exact pure _
    · exact display _

end Quiet

namespace Sure

theorem pure (result : α) : Sure (pure result) := fun _ => ⟨_, _, rfl⟩

/-- A change of the board cannot fail. -/
theorem modifyBoard (change : Board → Board) : Sure (modifyBoard change) :=
  fun _ => ⟨_, _, rfl⟩

/-- What the host is told cannot fail. -/
theorem modifyHost (change : Host → Host) : Sure (modifyHost change) :=
  fun _ => ⟨_, _, rfl⟩

theorem randomBetween (low high : Int64) : Sure (randomBetween low high) :=
  fun _ => ⟨_, _, rfl⟩

theorem makeArray (items : Array Value) : Sure (makeArray items) :=
  fun _ => ⟨_, _, rfl⟩

/-- Calls that cannot fail cannot fail one after the other. -/
theorem bind
    {call : Native α}
    {next : α → Native β}
    (first : Sure call)
    (later : ∀ result, Sure (next result)) :
    Sure (call >>= next) := by
  intro world
  obtain ⟨result, after, ran⟩ := first world
  rw [runIn_bind, ran]
  exact later result after

end Sure

/-- What changes nothing leaves the world as it was when it fails. -/
theorem Quiet.atomic
    {call : Native α}
    (quiet : Quiet call) :
    Atomic call := by
  intro world fault after ran
  have same := quiet world
  rw [ran] at same
  exact same

/-- What cannot fail has no failure to leave anything behind. -/
theorem Sure.atomic
    {call : Native α}
    (sure : Sure call) :
    Atomic call := by
  intro world fault after failed
  obtain ⟨result, changed, ran⟩ := sure world
  rw [ran] at failed
  cases failed

/-- What only looks at the world may come first. -/
theorem Quiet.before
    {call : Native α}
    {next : α → Native β}
    (first : Quiet call)
    (later : ∀ result, Atomic (next result)) :
    Atomic (call >>= next) := by
  intro world fault after ran
  have same := first world
  rw [runIn_bind] at ran
  split at ran
  · next result between earlier =>
      rw [earlier] at same
      exact (later result between fault after ran).trans same
  · next reason between earlier =>
      rw [earlier] at same
      cases ran
      exact same

namespace Atomic

/-- What cannot fail may come last. -/
theorem thenSure
    {call : Native α}
    {next : α → Native β}
    (first : Atomic call)
    (later : ∀ result, Sure (next result)) :
    Atomic (call >>= next) := by
  intro world fault after ran
  rw [runIn_bind] at ran
  split at ran
  · next result between earlier =>
      obtain ⟨given, changed, more⟩ := later result between
      rw [more] at ran
      cases ran
  · next reason between earlier =>
      cases ran
      exact first world fault after earlier

/-- What a call gives may be passed on in another form. -/
theorem thenReturn
    {call : Native α}
    (first : Atomic call)
    (answer : α → β) :
    Atomic (do return answer (← call)) :=
  first.thenSure fun _ => .pure _

/-- A strip is refused for its size before it is registered. -/
theorem createStrip
    (pixelCount pin : Int64)
    (order : ColorOrder) :
    Atomic (createStrip pixelCount pin order) := by
  refine Quiet.checkLive.before fun _ => ?_
  split
  · exact (Quiet.throw _).atomic
  · exact (Quiet.ofStrip _).before fun _ => Quiet.get.before fun _ =>
      ((Sure.modifyBoard _).bind fun _ => (Sure.modifyHost _).bind fun _ => .pure _).atomic

/-- A strip that refuses a change is not put back. -/
theorem changeStrip
    (id : Nat)
    (change : Strip → Except StripError Strip) :
    Atomic (changeStrip id change) :=
  (Quiet.strip id).before fun _ => (Quiet.ofStrip _).before fun _ => (Sure.modifyBoard _).atomic

/-- A strip is shown, or nothing has changed. -/
theorem showStrip (id : Nat) : Atomic (showStrip id) :=
  (Quiet.strip id).before fun _ => (Sure.modifyHost _).atomic

/-- A button is created, or nothing has changed. -/
theorem createButton (label : String) : Atomic (createButton label) :=
  Quiet.checkLive.before fun _ => Quiet.get.before fun _ =>
    ((Sure.modifyBoard _).bind fun _ => (Sure.modifyHost _).bind fun _ => .pure _).atomic

/-- A button that is missing is noticed before a handler is set. -/
theorem setHandler
    (id : Nat)
    (handler : Value) :
    Atomic (setHandler id handler) := by
  refine Quiet.get.before fun world => ?_
  split
  · exact (Sure.modifyBoard _).atomic
  · exact (Quiet.throw _).atomic

/-- A text is printed, or nothing has changed. -/
theorem print (text : String) : Atomic (print text) :=
  Quiet.checkLive.before fun _ => (Sure.modifyBoard _).atomic

theorem printLine (text : String) : Atomic (printLine text) :=
  Quiet.checkLive.before fun _ => Quiet.get.before fun _ =>
    ((Sure.modifyBoard _).bind fun _ => .modifyHost _).atomic

/-- The bounds are read before a number is drawn. -/
theorem callRandom (arguments : List Value) : Atomic (callRandom arguments) := by
  refine (Quiet.ofType _).before fun _ => (Quiet.ofType _).before fun _ => ?_
  split
  · exact (Sure.randomBetween _ _).atomic.thenReturn _
  · exact (Quiet.ofType _).before fun _ => (Sure.randomBetween _ _).atomic.thenReturn _

/-- The length is read and checked before an array is made. -/
theorem callArray (arguments : List Value) : Atomic (callArray arguments) := by
  refine (Quiet.ofType _).before fun _ => ?_
  split
  · exact (Quiet.throw _).atomic
  · exact (Sure.makeArray _).atomic.thenReturn _

/-- A native function that fails changes nothing. -/
theorem callBuiltin
    (builtin : Builtin)
    (arguments : List Value) :
    Atomic (callBuiltin builtin arguments) := by
  have computed {fails : Except TypeFault Value} :
      Atomic (do return Response.value (← Native.ofType fails)) :=
    (Quiet.ofType _).atomic.thenReturn _
  cases builtin with
  | createStrip =>
      refine thenReturn ?_ _
      exact (Quiet.ofType _).before fun _ => (Quiet.orderArgument _).before fun _ =>
        (Quiet.ofType _).before fun _ => (Quiet.ofType _).before fun _ =>
          (createStrip _ _ _).thenReturn _
  | createButton =>
      refine thenReturn ?_ _
      exact (Quiet.ofType _).before fun _ => (Quiet.display _).before fun _ =>
        (createButton _).thenReturn _
  | delay | delayMicroseconds =>
      exact (Quiet.ofType _).before fun _ =>
        ((Sure.modifyBoard _).bind fun _ => .pure _).atomic
  | millis | micros => exact Quiet.get.before fun _ => (Sure.pure _).atomic
  | random => exact (callRandom _).thenReturn _
  | randomSeed =>
      exact (Quiet.ofType _).before fun _ =>
        ((Sure.modifyBoard _).bind fun _ => .pure _).atomic
  | min | max | constrain | map => exact (Quiet.ofType _).before fun _ => computed
  | abs => exact computed
  | sqrt | sin | cos => exact (Quiet.ofType _).before fun _ => (Sure.pure _).atomic
  | pow =>
      exact (Quiet.ofType _).before fun _ => (Quiet.ofType _).before fun _ =>
        (Sure.pure _).atomic
  | array => exact (callArray _).thenReturn _

/-- Each method of a strip reads its arguments before it changes the strip. -/
theorem callStrip
    (id : Nat)
    (name : String)
    (arguments : List Value) :
    Atomic (callStrip id name arguments) := by
  have looked {answer : Strip → Value} : Atomic (do return answer (← Native.strip id)) :=
    (Quiet.strip id).atomic.thenReturn _
  unfold Native.callStrip
  split
  case h_1 | h_3 | h_4 | h_5 | h_11 => exact looked
  case h_2 => exact (showStrip id).thenReturn _
  case h_6 => exact (changeStrip id _).thenReturn _
  case h_7 =>
    exact (Quiet.ofType _).before fun _ => (Quiet.ofType _).before fun _ =>
      (Quiet.ofType _).before fun _ => (changeStrip id _).thenReturn _
  case h_8 =>
    exact (Quiet.ofType _).before fun _ => (Quiet.ofType _).before fun _ =>
      (changeStrip id _).thenReturn _
  case h_9 =>
    exact (Quiet.ofType _).before fun _ => (Quiet.strip id).before fun _ =>
      (Quiet.ofStrip _).atomic.thenReturn _
  case h_10 => exact (Quiet.ofType _).before fun _ => (changeStrip id _).thenReturn _
  case h_12 =>
    split
    · exact Quiet.checkLive.before fun _ => (Quiet.ofCall _).atomic
    · exact (Quiet.throw _).atomic

/-- A button refuses what cannot be called before it keeps a handler. -/
theorem callButton
    (id : Nat)
    (name : String)
    (arguments : List Value) :
    Atomic (callButton id name arguments) := by
  unfold Native.callButton
  split
  · dsimp only
    split
    · exact (setHandler id _).thenReturn _
    · exact (Quiet.throw _).atomic
  · exact (Quiet.throw _).atomic

/-- Each method of the serial line reads its arguments before it prints. -/
theorem callSerial
    (name : String)
    (arguments : List Value) :
    Atomic (callSerial name arguments) := by
  unfold Native.callSerial
  split
  · exact Quiet.checkLive.atomic.thenReturn _
  · exact (Quiet.serialText _).before fun _ => (print _).thenReturn _
  · exact (Quiet.serialText _).before fun _ => (printLine _).thenReturn _
  · exact (Quiet.throw _).atomic

/-- The methods of the color helper only compute. -/
theorem callNeoPixel
    (name : String)
    (arguments : List Value) :
    Atomic (callNeoPixel name arguments) := by
  unfold Native.callNeoPixel
  split
  · exact (Quiet.ofCall _).atomic
  · exact (Quiet.throw _).atomic

/-- A method that fails changes nothing. -/
theorem callMethod
    (handle : Handle)
    (name : String)
    (arguments : List Value) :
    Atomic (callMethod handle name arguments) := by
  cases handle with
  | strip id => exact callStrip id name arguments
  | button id => exact callButton id name arguments
  | serial => exact callSerial name arguments
  | neoPixel => exact callNeoPixel name arguments

end Atomic

end LedSketch.Native
