import LedSketch.Proofs.Native.Values
import LedSketch.Proofs.Script.Renumbering

namespace LedSketch

/-!
# Renumbering in native calls

Native calls do not look at the numbers of functions.  Given functions with other numbers,
in a world where functions have other numbers, a call does the same and leaves the world
that differs in these numbers only.
-/

open Script

section Definitions

variable (numbers : Renumbering)

/-- A button whose handler has other numbers. -/
def Button.renumbered (button : Button) : Button :=
  { button with handler := button.handler.map (Value.renumbered numbers) }

/-- A board whose handlers have other numbers. -/
def Board.renumbered (board : Board) : Board :=
  { board with buttons := board.buttons.map (Button.renumbered numbers) }

/-- A world in which functions have other numbers. -/
def World.renumbered (world : World) : World where
  heap := world.heap.renumbered numbers
  board := world.board.renumbered numbers
  host := world.host

end Definitions

variable {numbers other : Renumbering}

/-- Numbers that agree for the handlers renumber a board alike. -/
theorem Board.renumbered_congr
    {board : Board}
    (agree : board.Hold (numbers.Agree other)) :
    board.renumbered numbers = board.renumbered other := by
  have buttons :
      board.buttons.map (Button.renumbered numbers) =
        board.buttons.map (Button.renumbered other) := by
    refine Array.map_congr_left fun button isButton => ?_
    unfold Button.renumbered
    congr 1
    cases set : button.handler with
    | none => rfl
    | some handler => exact congrArg some (agree button isButton handler set).1
  unfold Board.renumbered
  rw [buttons]

theorem Board.renumbered_same (board : Board) : board.renumbered .same = board := by
  have buttons : board.buttons.map (Button.renumbered .same) = board.buttons := by
    refine (Array.map_congr_left fun button _ => ?_).trans (Array.map_id' board.buttons)
    unfold Button.renumbered
    rw [funext Value.renumbered_same, Option.map_id']
  unfold Board.renumbered
  rw [buttons]

theorem World.renumbered_same (world : World) : world.renumbered .same = world := by
  unfold World.renumbered
  rw [Heap.renumbered_same, Board.renumbered_same]

/-- Numbers that agree for all values renumber a world alike. -/
theorem World.renumbered_congr
    {world : World}
    (agree : world.Hold (numbers.Agree other)) :
    world.renumbered numbers = world.renumbered other := by
  unfold World.renumbered
  rw [Heap.renumbered_congr agree.heap, Board.renumbered_congr agree.board]

namespace Native

section Arguments

variable (arguments : List Value)

/-- An argument of renumbered ones is renumbered. -/
theorem value_renumbered (position : Nat) :
    Arguments.value (arguments.map (Value.renumbered numbers)) position =
      (Arguments.value arguments position).renumbered numbers := by
  unfold Arguments.value
  rw [List.getElem?_map]
  cases arguments[position]? <;> rfl

/-- Functions are no integers under any number. -/
theorem int_renumbered (position : Nat) :
    Arguments.int (arguments.map (Value.renumbered numbers)) position =
      Arguments.int arguments position := by
  rw [Arguments.int, value_renumbered, Value.toInt64_renumbered, Arguments.int]

theorem float_renumbered (position : Nat) :
    Arguments.float (arguments.map (Value.renumbered numbers)) position =
      Arguments.float arguments position := by
  rw [Arguments.float, value_renumbered, Value.toFloat_renumbered, Arguments.float]

theorem intOr_renumbered
    (position : Nat)
    (default : Int64) :
    Arguments.intOr (arguments.map (Value.renumbered numbers)) position default =
      Arguments.intOr arguments position default := by
  unfold Arguments.intOr
  rw [value_renumbered]
  cases Arguments.value arguments position <;> rfl

theorem channel_renumbered (position : Nat) :
    Arguments.channel (arguments.map (Value.renumbered numbers)) position =
      Arguments.channel arguments position := by
  unfold Arguments.channel
  rw [value_renumbered]
  cases Arguments.value arguments position <;> rfl

theorem color_renumbered (position : Nat) :
    Arguments.color (arguments.map (Value.renumbered numbers)) position =
      Arguments.color arguments position := by
  rw [Arguments.color, intOr_renumbered, Arguments.color]

/-- Channels of a color are numbers, which have no scopes. -/
theorem channels_renumbered (first : Nat) :
    Arguments.channels (arguments.map (Value.renumbered numbers)) first =
      Arguments.channels arguments first := by
  simp only [Arguments.channels, channel_renumbered]

/-- As many arguments are missing as before. -/
theorem atLeast_renumbered
    (least : Nat)
    (name : String) :
    Arguments.atLeast least name (arguments.map (Value.renumbered numbers)) =
      Arguments.atLeast least name arguments := by
  rw [Arguments.atLeast, List.length_map, Arguments.atLeast]

/-- No argument becomes a float. -/
theorem anyFloat_renumbered (count : Nat) :
    Arguments.anyFloat count (arguments.map (Value.renumbered numbers)) =
      Arguments.anyFloat count arguments := by
  unfold Arguments.anyFloat
  rw [← List.map_take, List.any_map]
  exact congrArg _ (funext fun value => value.isFloat_renumbered)

/-- What is chosen is a number, so it keeps its numbers. -/
theorem extremum_renumbered (smaller : Bool) :
    extremum smaller (arguments.map (Value.renumbered numbers)) = extremum smaller arguments := by
  unfold extremum
  rw [value_renumbered, value_renumbered]
  cases Arguments.value arguments 0 with
  | function closure => cases Arguments.value arguments 1 <;> rfl
  | _ => cases Arguments.value arguments 1 <;> rfl

theorem absolute_renumbered (value : Value) :
    absolute (value.renumbered numbers) = absolute value := by
  cases value <;> rfl

theorem orderArgument_renumbered :
    orderArgument (arguments.map (Value.renumbered numbers)) = orderArgument arguments := by
  unfold orderArgument
  rw [value_renumbered]
  cases Arguments.value arguments 2 <;> rfl

/-- A value is shown without the number of its scope. -/
theorem display_renumbered (value : Value) :
    display (value.renumbered numbers) = display value := by
  simp only [display, Heap.display_renumbered_value]

/-- A native function computes the same with functions that have other numbers. -/
theorem callBuiltin_renumbered (builtin : Builtin) :
    callBuiltin builtin (arguments.map (Value.renumbered numbers)) =
      callBuiltin builtin arguments := by
  cases builtin <;>
    simp only [callBuiltin, callCreateStrip, callCreateButton, callRandom, callArray, constrain,
      mapRange, value_renumbered, int_renumbered, float_renumbered, atLeast_renumbered,
      anyFloat_renumbered, extremum_renumbered, absolute_renumbered, orderArgument_renumbered,
      display_renumbered, List.length_map]

theorem colorHelper?_renumbered (name : String) :
    colorHelper? name (arguments.map (Value.renumbered numbers)) =
      colorHelper? name arguments := by
  simp only [colorHelper?, hueColor, gammaLevel, channels_renumbered, intOr_renumbered,
    int_renumbered, color_renumbered]

theorem pixelArgument_renumbered :
    pixelArgument (arguments.map (Value.renumbered numbers)) = pixelArgument arguments := by
  simp only [pixelArgument, List.length_map, color_renumbered, channels_renumbered]

/-- The methods of strips do not look at numbers of scopes. -/
theorem callStrip_renumbered
    (id : Nat)
    (name : String) :
    callStrip id name (arguments.map (Value.renumbered numbers)) =
      callStrip id name arguments := by
  simp only [callStrip, color_renumbered, intOr_renumbered, int_renumbered, channel_renumbered,
    pixelArgument_renumbered, colorHelper?_renumbered]

theorem serialText_renumbered :
    serialText (arguments.map (Value.renumbered numbers)) = serialText arguments := by
  rcases arguments with _ | ⟨value, _ | ⟨format, rest⟩⟩
  · rfl
  · exact display_renumbered value
  · simp only [List.map_cons, serialText, Value.toInt64_renumbered]
    cases value with
    | function closure => exact congrArg _ (funext fun _ => display_renumbered _)
    | _ => rfl

/-- The methods of `Serial` do not look at numbers of scopes. -/
theorem callSerial_renumbered (name : String) :
    callSerial name (arguments.map (Value.renumbered numbers)) = callSerial name arguments := by
  simp only [callSerial, serialText_renumbered]

theorem callNeoPixel_renumbered (name : String) :
    callNeoPixel name (arguments.map (Value.renumbered numbers)) =
      callNeoPixel name arguments := by
  simp only [callNeoPixel, colorHelper?_renumbered]

end Arguments

/-- A call does the same in a world whose functions have other numbers, and gives none of them. -/
def IgnoresNumbers
    {α : Type}
    (numbers : Renumbering)
    (call : Native α)
    (has : α → Prop) :
    Prop :=
  ∀ world,
    runIn (world.renumbered numbers) call =
        ((runIn world call).1, (runIn world call).2.renumbered numbers) ∧
      Yields has (runIn world call).1

namespace IgnoresNumbers

variable {α β : Type}

/-- A known result ignores the numbers. -/
theorem pure
    {result : α}
    {has : α → Prop}
    (known : has result) :
    IgnoresNumbers numbers (pure result) has :=
  fun _ => ⟨rfl, .ok known⟩

/-- A call that fails ignores the numbers. -/
theorem throw
    {has : α → Prop}
    (fault : CallFault) :
    IgnoresNumbers numbers (throw fault : Native α) has :=
  fun _ => ⟨rfl, .error⟩

/-- Calls one after the other ignore the numbers, if both do. -/
theorem bind
    {call : Native α}
    {next : α → Native β}
    {mid : α → Prop}
    {has : β → Prop}
    (first : IgnoresNumbers numbers call mid)
    (later : ∀ result, mid result → IgnoresNumbers numbers (next result) has) :
    IgnoresNumbers numbers (call >>= next) has := by
  intro world
  obtain ⟨same, known⟩ := first world
  rw [runIn_bind, runIn_bind, same]
  revert known
  rcases runIn world call with ⟨fault | result, after⟩
  · exact fun _ => ⟨rfl, .error⟩
  · exact fun known => later result (known result rfl) after

/-- A result that is not looked at may be anything. -/
theorem next
    {call : Native α}
    {next : α → Native β}
    {mid : α → Prop}
    {has : β → Prop}
    (first : IgnoresNumbers numbers call mid)
    (later : ∀ result, IgnoresNumbers numbers (next result) has) :
    IgnoresNumbers numbers (call >>= next) has :=
  first.bind fun result _ => later result

/-- What is made of the world may not depend on the numbers. -/
theorem bind_get
    {next : World → Native α}
    {has : α → Prop}
    (same : ∀ world, next (world.renumbered numbers) = next world)
    (later : ∀ world, IgnoresNumbers numbers (next world) has) :
    IgnoresNumbers numbers (get >>= next) has := by
  intro world
  rw [runIn_bind, runIn_bind, runIn_get, runIn_get]
  dsimp only
  rw [same]
  exact later world world

/-- Strips have no numbers of scopes. -/
theorem ofStrip (computed : Except StripError α) :
    IgnoresNumbers numbers (ofStrip computed) fun _ => True := by
  cases computed with
  | ok result => exact pure trivial
  | error error => exact throw _

/-- Whether a run is current does not depend on numbers of scopes. -/
theorem checkLive : IgnoresNumbers numbers checkLive fun _ => True := by
  refine bind_get (fun _ => rfl) fun world => ?_
  split
  · exact pure trivial
  · exact throw _

/-- A change of the board ignores the numbers, if it commutes with them. -/
theorem modifyBoard
    {change : Board → Board}
    (same :
      ∀ board : Board,
        change (board.renumbered numbers) = (change board).renumbered numbers) :
    IgnoresNumbers numbers (modifyBoard change) fun _ => True := by
  intro world
  refine ⟨?_, .ok trivial⟩
  exact congrArg (fun board => (_, World.mk _ board _)) (same world.board)

/-- What the host is told has no numbers of scopes. -/
theorem modifyHost (change : Host → Host) :
    IgnoresNumbers numbers (modifyHost change) fun _ => True :=
  fun _ => ⟨rfl, .ok trivial⟩

/-- To show a value ignores the numbers. -/
theorem display (value : Value) : IgnoresNumbers numbers (display value) fun _ => True := by
  refine bind_get (fun world => ?_) fun _ => pure trivial
  rw [World.renumbered, Heap.display_renumbered]

/-- A new strip has no functions. -/
theorem createStrip
    (pixelCount pin : Int64)
    (order : ColorOrder) :
    IgnoresNumbers numbers (createStrip pixelCount pin order) fun _ => True := by
  refine checkLive.next fun _ => ?_
  split
  · exact throw _
  · refine (ofStrip _).next fun _ => bind_get (fun _ => rfl) fun _ =>
      next (modifyBoard ?_) fun _ => next (modifyHost _) fun _ => pure trivial
    exact fun _ => rfl

/-- A strip is found by its own number. -/
theorem strip (id : Nat) : IgnoresNumbers numbers (strip id) fun _ => True := by
  refine checkLive.next fun _ => bind_get (fun _ => rfl) fun world => ?_
  split
  · exact pure trivial
  · exact throw _

theorem changeStrip
    (id : Nat)
    (change : Strip → Except StripError Strip) :
    IgnoresNumbers numbers (changeStrip id change) fun _ => True :=
  (strip id).next fun _ => (ofStrip _).next fun _ => modifyBoard fun _ => rfl

/-- A frame has no numbers of scopes. -/
theorem showStrip (id : Nat) : IgnoresNumbers numbers (showStrip id) fun _ => True :=
  (strip id).next fun _ => modifyHost _

/-- A new button has no handler yet. -/
theorem createButton (label : String) :
    IgnoresNumbers numbers (createButton label) fun _ => True := by
  refine checkLive.next fun _ => bind_get (fun world => ?_) fun _ =>
    (modifyBoard fun board => ?_).next fun _ => (modifyHost _).next fun _ => pure trivial
  · rw [World.renumbered, Board.renumbered, Array.size_map]
  · unfold Board.renumbered
    rw [Array.map_push]
    rfl

theorem print (text : String) : IgnoresNumbers numbers (print text) fun _ => True :=
  checkLive.next fun _ => modifyBoard fun _ => rfl

/-- A line has no numbers of scopes. -/
theorem printLine (text : String) : IgnoresNumbers numbers (printLine text) fun _ => True := by
  refine checkLive.next fun _ => bind_get (fun _ => rfl) fun _ =>
    next (modifyBoard ?_) fun _ => modifyHost _
  exact fun _ => rfl

/-- Random numbers are drawn without the numbers of scopes. -/
theorem randomBetween (low high : Int64) :
    IgnoresNumbers numbers (randomBetween low high) fun _ => True := by
  refine bind_get (fun _ => rfl) fun _ => next (modifyBoard ?_) fun _ => pure trivial
  exact fun _ => rfl

theorem seedRandom (seed : UInt64) : IgnoresNumbers numbers (seedRandom seed) fun _ => True := by
  apply modifyBoard
  exact fun _ => rfl

theorem passTime (pass : Clock → Clock) :
    IgnoresNumbers numbers (passTime pass) fun _ => True := by
  apply modifyBoard
  exact fun _ => rfl

/-- The handler that is set has other numbers too. -/
theorem runIn_setHandler
    (numbers : Renumbering)
    (world : World)
    (id : Nat)
    (handler : Value) :
    runIn (world.renumbered numbers) (setHandler id (handler.renumbered numbers)) =
      ((runIn world (setHandler id handler)).1,
        (runIn world (setHandler id handler)).2.renumbered numbers) := by
  have sameSize : (world.renumbered numbers).board.buttons.size = world.board.buttons.size :=
    Array.size_map
  unfold setHandler
  simp only [runIn_bind, runIn_get, sameSize]
  split
  · have same :
        (world.renumbered numbers).board.buttons.modify id
            (fun button => { button with handler := some (handler.renumbered numbers) }) =
          (world.board.buttons.modify id
            fun button => { button with handler := some handler }).map
              (Button.renumbered numbers) := by
      rw [map_modify]
      · rfl
      · exact fun _ => rfl
    exact congrArg (fun buttons => (_, { world.renumbered numbers with
      board := { world.board with buttons } })) same
  · rfl

/-- An array of values without scopes ignores the numbers. -/
theorem makeArray
    {items : Array Value}
    (fixed : ∀ item ∈ items, item.renumbered numbers = item) :
    IgnoresNumbers numbers (makeArray items) fun _ => True := by
  intro world
  have same : items.map (Value.renumbered numbers) = items :=
    (Array.map_congr_left fixed).trans (Array.map_id' items)
  refine ⟨?_, .ok trivial⟩
  have allocated := Heap.allocate_renumbered numbers world.heap items
  rw [same] at allocated
  exact congrArg (fun made : Nat × Heap => (Except.ok made.1, World.mk made.2 _ _)) allocated

/-- No native call looks at the numbers of functions. -/
theorem compositional (numbers : Renumbering) :
    CompositionalFor (fun value => value.renumbered numbers = value)
      (IgnoresNumbers numbers) where
  plain := concernsFunctions_renumbered numbers
  pure := pure
  throw := throw
  next := next
  answer made := made.bind fun _ fixed => pure fixed
  readBoard _ known := bind_get (fun _ => rfl) fun _ => pure (known _ _)
  display := display
  checkLive := checkLive
  createStrip := createStrip
  strip := strip
  changeStrip id change _ := changeStrip id change
  showStrip := showStrip
  createButton := createButton
  setHandler id handler fixed _ := fun world => by
    have same := runIn_setHandler numbers world id handler
    rw [fixed] at same
    exact ⟨same, fun _ _ => trivial⟩
  print := print
  printLine := printLine
  randomBetween := randomBetween
  seedRandom := seedRandom
  passTime := passTime
  makeArray := makeArray

end IgnoresNumbers

/-- A call of a native function does the same with other numbers. -/
theorem runIn_callBuiltin_renumbered
    (numbers : Renumbering)
    (world : World)
    (builtin : Builtin)
    (arguments : List Value) :
    runIn (world.renumbered numbers)
          (callBuiltin builtin (arguments.map (Value.renumbered numbers))) =
        ((runIn world (callBuiltin builtin arguments)).1,
          (runIn world (callBuiltin builtin arguments)).2.renumbered numbers) ∧
      Yields (Response.Hold fun value => value.renumbered numbers = value)
        (runIn world (callBuiltin builtin arguments)).1 := by
  rw [callBuiltin_renumbered]
  exact (IgnoresNumbers.compositional numbers).callBuiltin builtin arguments world

/-- A call of a native method does the same with other numbers. -/
theorem runIn_callMethod_renumbered
    (numbers : Renumbering)
    (world : World)
    (handle : Handle)
    (name : String)
    (arguments : List Value) :
    runIn (world.renumbered numbers)
          (callMethod handle name (arguments.map (Value.renumbered numbers))) =
        ((runIn world (callMethod handle name arguments)).1,
          (runIn world (callMethod handle name arguments)).2.renumbered numbers) ∧
      Yields (fun value => value.renumbered numbers = value)
        (runIn world (callMethod handle name arguments)).1 := by
  have law := IgnoresNumbers.compositional numbers
  cases handle with
  | strip id =>
      unfold callMethod
      dsimp only
      rw [callStrip_renumbered]
      exact law.callStrip id name arguments world
  | button id =>
      unfold callMethod callButton
      dsimp only
      rw [value_renumbered, Value.isCallable_renumbered, Value.typeName_renumbered]
      split
      · split
        · have set :=
            IgnoresNumbers.runIn_setHandler numbers world id
              (Arguments.value arguments 0)
          rw [runIn_bind, runIn_bind, set]
          rcases runIn world (setHandler id (Arguments.value arguments 0)) with
            ⟨fault | result, after⟩
          · exact ⟨rfl, .error⟩
          · exact ⟨rfl, .ok rfl⟩
        · exact ⟨rfl, .error⟩
      · exact ⟨rfl, .error⟩
  | serial =>
      unfold callMethod
      dsimp only
      rw [callSerial_renumbered]
      exact law.callSerial name arguments world
  | neoPixel =>
      unfold callMethod
      dsimp only
      rw [callNeoPixel_renumbered]
      exact law.callNeoPixel name arguments world

end Native

end LedSketch
