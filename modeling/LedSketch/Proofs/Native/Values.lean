import LedSketch.Proofs.Native.Composition

namespace LedSketch

/-!
# Values in native calls

The arrays that native calls make and the handlers that they set hold only functions
that were among their arguments, as their results do.
-/

open Script

/-- A board whose handlers are good values that can be called. -/
def Board.Hold
    (good : Value → Prop)
    (board : Board) :
    Prop :=
  ∀ button ∈ board.buttons, ∀ handler ∈ button.handler,
    good handler ∧ handler.isCallable = true

namespace Board.Hold

variable {good : Value → Prop} {board : Board}

/-- A new button has no handler. -/
theorem addButton
    (hold : board.Hold good)
    (label : String) :
    Board.Hold good { board with buttons := board.buttons.push ⟨label, none⟩ } := by
  intro button member handler isHandler
  rcases Array.mem_push.mp member with old | rfl
  · exact hold button old handler isHandler
  · contradiction

/-- A button gets a good handler, and the others keep theirs. -/
theorem setHandler
    {handler : Value}
    (hold : board.Hold good)
    (id : Nat)
    (isGood : good handler)
    (callable : handler.isCallable = true) :
    Board.Hold good
      { board with
        buttons := board.buttons.modify id fun button =>
          { button with handler := some handler } } := by
  intro button member other isHandler
  obtain ⟨position, found⟩ := Array.mem_iff_getElem?.mp member
  rw [Array.getElem?_modify] at found
  split at found
  · obtain ⟨old, wasButton, rfl⟩ := Option.map_eq_some_iff.mp found
    cases isHandler
    exact ⟨isGood, callable⟩
  · exact hold button (Array.mem_of_getElem? found) other isHandler

end Board.Hold

/-- A world whose arrays and handlers are good values. -/
structure World.Hold
    (good : Value → Prop)
    (world : World) :
    Prop where
  heap : world.heap.Hold good
  board : world.board.Hold good

namespace Native

/-- A call that keeps a world of good values, and has only good results. -/
def Moves
    {α : Type}
    (good : Value → Prop)
    (call : Native α)
    (result : α → Prop) :
    Prop :=
  ∀ world, world.Hold good →
    (runIn world call).2.Hold good ∧ Yields result (runIn world call).1

namespace Moves

variable {good : Value → Prop} {α β : Type}

/-- A good result moves nothing. -/
theorem pure
    {found : α}
    {result : α → Prop}
    (isGood : result found) :
    Moves good (pure found) result :=
  fun _ hold => ⟨hold, .ok isGood⟩

/-- A call that fails at once moves nothing. -/
theorem throw
    {result : α → Prop}
    (fault : CallFault) :
    Moves good (throw fault : Native α) result :=
  fun _ hold => ⟨hold, .error⟩

/-- Calls one after the other move good values, if each does. -/
theorem bind
    {call : Native α}
    {next : α → Native β}
    {mid : α → Prop}
    {result : β → Prop}
    (first : Moves good call mid)
    (later : ∀ found, mid found → Moves good (next found) result) :
    Moves good (call >>= next) result := by
  intro world hold
  have before := first world hold
  rw [runIn_bind]
  split
  · next found after ran =>
      rw [ran] at before
      exact later found (before.2 found rfl) after before.1
  · next fault after ran =>
      rw [ran] at before
      exact ⟨before.1, .error⟩

/-- A part whose result is not looked at comes before another. -/
theorem next
    {call : Native α}
    {next : α → Native β}
    {mid : α → Prop}
    {result : β → Prop}
    (first : Moves good call mid)
    (later : ∀ found, Moves good (next found) result) :
    Moves good (call >>= next) result :=
  first.bind fun found _ => later found

/-- To look at the world moves nothing. -/
theorem get : Moves good get (World.Hold good) :=
  fun _ hold => ⟨hold, .ok hold⟩

/-- A change of the board moves good values if it keeps the handlers good. -/
theorem modifyBoard
    {change : Board → Board}
    (keeps : ∀ board, board.Hold good → (change board).Hold good) :
    Moves good (modifyBoard change) fun _ => True :=
  fun _ hold => ⟨⟨hold.heap, keeps _ hold.board⟩, .ok trivial⟩

/-- What the host is told has no values. -/
theorem modifyHost (change : Host → Host) :
    Moves good (modifyHost change) fun _ => True :=
  fun _ hold => ⟨⟨hold.heap, hold.board⟩, .ok trivial⟩

/-- A change of a strip has no values. -/
theorem ofStrip (computed : Except StripError α) :
    Moves good (ofStrip computed) fun _ => True := by
  cases computed with
  | ok found => exact .pure trivial
  | error error => exact .throw _

theorem checkLive : Moves good checkLive fun _ => True := by
  refine get.bind fun world _ => ?_
  split
  · exact .pure trivial
  · exact .throw _

/-- A text that shows a value is no function. -/
theorem display (value : Value) : Moves good (display value) fun _ => True :=
  get.bind fun _ _ => .pure trivial

/-- A new strip has no values. -/
theorem createStrip
    (pixelCount pin : Int64)
    (order : ColorOrder) :
    Moves good (createStrip pixelCount pin order) fun _ => True := by
  refine checkLive.next fun _ => ?_
  split
  · exact .throw _
  · refine (ofStrip _).next fun _ => get.bind fun _ _ => next (modifyBoard ?_) fun _ =>
      next (modifyHost _) fun _ => .pure trivial
    exact fun _ hold => hold

theorem strip (id : Nat) : Moves good (strip id) fun _ => True := by
  refine checkLive.next fun _ => get.bind fun world _ => ?_
  split
  · exact .pure trivial
  · exact .throw _

theorem changeStrip
    (id : Nat)
    (change : Strip → Except StripError Strip) :
    Moves good (changeStrip id change) fun _ => True :=
  (strip id).next fun _ => (ofStrip _).next fun _ => modifyBoard fun _ hold => hold

theorem showStrip (id : Nat) : Moves good (showStrip id) fun _ => True :=
  (strip id).next fun _ => modifyHost _

/-- A new button has no handler. -/
theorem createButton (label : String) :
    Moves good (createButton label) fun _ => True := by
  refine checkLive.next fun _ => get.bind fun _ _ => next (modifyBoard ?_) fun _ =>
    next (modifyHost _) fun _ => .pure trivial
  exact fun _ hold => hold.addButton label

/-- A button is given a good handler, or there is no such button. -/
theorem setHandler
    {handler : Value}
    (id : Nat)
    (isGood : good handler)
    (callable : handler.isCallable = true) :
    Moves good (setHandler id handler) fun _ => True := by
  refine get.bind fun world _ => ?_
  split
  · exact modifyBoard fun _ hold => hold.setHandler id isGood callable
  · exact .throw _

theorem print (text : String) : Moves good (print text) fun _ => True :=
  checkLive.next fun _ => modifyBoard fun _ hold => hold

theorem printLine (text : String) : Moves good (printLine text) fun _ => True := by
  refine checkLive.next fun _ => get.bind fun _ _ => next (modifyBoard ?_) fun _ =>
    modifyHost _
  exact fun _ hold => hold

theorem randomBetween (low high : Int64) :
    Moves good (randomBetween low high) fun _ => True := by
  refine get.bind fun _ _ => next (modifyBoard ?_) fun _ => .pure trivial
  exact fun _ hold => hold

theorem seedRandom (seed : UInt64) : Moves good (seedRandom seed) fun _ => True :=
  modifyBoard fun _ hold => hold

theorem passTime (pass : Clock → Clock) : Moves good (passTime pass) fun _ => True :=
  modifyBoard fun _ hold => hold

/-- An array is made of good items. -/
theorem makeArray
    {items : Array Value}
    (goodItems : ∀ item ∈ items, good item) :
    Moves good (makeArray items) fun _ => True :=
  fun _ hold => ⟨⟨hold.heap.allocate goodItems, hold.board⟩, .ok trivial⟩

/-- Every native call moves good values only, if its arguments are good. -/
theorem compositional (plain : ConcernsFunctions good) : CompositionalFor good (Moves good) where
  plain := plain
  pure := pure
  throw := throw
  next first later := first.next later
  answer made := made.bind fun _ isGood => .pure isGood
  readBoard _ known := get.next fun _ => .pure (known _ _)
  display := display
  checkLive := checkLive
  createStrip := createStrip
  strip := strip
  changeStrip id change _ := changeStrip id change
  showStrip := showStrip
  createButton := createButton
  setHandler id _ := setHandler id
  print := print
  printLine := printLine
  randomBetween := randomBetween
  seedRandom := seedRandom
  passTime := passTime
  makeArray := makeArray

end Moves

/-- Without arguments, a native function can only miss some of them. -/
theorem fault_of_no_arguments
    {builtin : Builtin}
    {world after : World}
    {fault : CallFault}
    (failed : runIn world (callBuiltin builtin []) = (.error fault, after)) :
    ∃ missing, fault = .type missing := by
  cases builtin with
  | millis | micros => cases failed
  | _ =>
      cases failed
      exact ⟨_, rfl⟩

end Native

end LedSketch
