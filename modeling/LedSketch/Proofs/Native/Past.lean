import LedSketch.Proofs.Native.Composition

namespace LedSketch

/-!
# The past of a host

A host has been told events and log entries before.  Native calls only add to
them: with another past, a call returns the same result and adds the same.
-/

/-- What a host was told before. -/
structure Past where
  events : Array Event
  log : Array LogEntry

/-- The host with a past in front of what it was told. -/
def Host.after
    (host : Host)
    (past : Past) :
    Host :=
  { host with
    events := past.events ++ host.events
    log := past.log ++ host.log }

namespace Host

/-- An event that is told now comes behind all of the past. -/
theorem after_emit
    (host : Host)
    (past : Past)
    (event : Event) :
    (host.after past).emit event = (host.emit event).after past := by
  simp [after, emit]

/-- An entry of the log that is made now comes behind all of the past. -/
theorem after_record
    (host : Host)
    (past : Past)
    (entry : LogEntry) :
    (host.after past).record entry = (host.record entry).after past := by
  simp [after, record]

end Host

/-- The world whose host has a past. -/
def World.after
    (world : World)
    (past : Past) :
    World :=
  { world with host := world.host.after past }

namespace Native

/-- A call does the same whatever the host was told before. -/
def IgnoresPast (call : Native α) : Prop :=
  ∀ world past,
    runIn (world.after past) call =
      ((runIn world call).1, (runIn world call).2.after past)

namespace IgnoresPast

variable {α β : Type}

theorem pure (result : α) : IgnoresPast (pure result) := fun _ _ => rfl

theorem throw (fault : Script.CallFault) : IgnoresPast (throw fault : Native α) :=
  fun _ _ => rfl

theorem ofStrip (result : Except StripError α) : IgnoresPast (ofStrip result) :=
  fun world past => by simp

theorem checkLive : IgnoresPast checkLive := by
  intro world past
  rw [runIn_checkLive, runIn_checkLive]
  rfl

theorem modifyBoard (change : Board → Board) : IgnoresPast (modifyBoard change) :=
  fun _ _ => rfl

/-- A change of the host ignores the past if it only adds to it. -/
theorem modifyHost
    {change : Host → Host}
    (adds : ∀ host past, change (host.after past) = (change host).after past) :
    IgnoresPast (modifyHost change) := by
  intro world past
  simp only [runIn_modifyHost, World.after, adds]

/-- Calls one after the other ignore the past if each of them does. -/
theorem bind
    {call : Native α}
    {next : α → Native β}
    (first : IgnoresPast call)
    (later : ∀ result, IgnoresPast (next result)) :
    IgnoresPast (call >>= next) := by
  intro world past
  rw [runIn_bind, runIn_bind, first]
  rcases runIn world call with ⟨fault | result, after⟩
  · rfl
  · exact later result after past

/-- What is made of the world may not depend on the past. -/
theorem bind_get
    {next : World → Native α}
    (same : ∀ world past, next (world.after past) = next world)
    (later : ∀ world, IgnoresPast (next world)) :
    IgnoresPast (get >>= next) := by
  intro world past
  rw [runIn_bind, runIn_bind, runIn_get, runIn_get]
  dsimp only
  rw [same]
  exact later world world past

/-- To announce a strip adds an event and leaves those before it. -/
theorem createStrip
    (pixelCount pin : Int64)
    (order : ColorOrder) :
    IgnoresPast (createStrip pixelCount pin order) := by
  refine bind .checkLive fun _ => ?_
  split
  · exact .throw _
  · refine bind (.ofStrip _) fun _ => bind_get (fun _ _ => rfl) fun _ =>
      bind (.modifyBoard _) fun _ => bind (.modifyHost fun host past => ?_) fun _ => .pure _
    rw [Host.after_record, Host.after_emit]

/-- A strip is looked up on the board. -/
theorem strip (id : Nat) : IgnoresPast (strip id) := by
  refine bind .checkLive fun _ => bind_get (fun _ _ => rfl) fun world => ?_
  split
  · exact .pure _
  · exact .throw _

theorem changeStrip
    (id : Nat)
    (change : Strip → Except StripError Strip) :
    IgnoresPast (changeStrip id change) :=
  bind (.strip id) fun _ => bind (.ofStrip _) fun _ => .modifyBoard _

theorem showStrip (id : Nat) : IgnoresPast (showStrip id) :=
  bind (.strip id) fun _ => .modifyHost fun host past => Host.after_emit host past _

/-- To announce a button adds an event and an entry, and leaves those before them. -/
theorem createButton (label : String) : IgnoresPast (createButton label) := by
  refine bind .checkLive fun _ => bind_get (fun _ _ => rfl) fun _ =>
    bind (.modifyBoard _) fun _ => bind (.modifyHost fun host past => ?_) fun _ => .pure _
  rw [Host.after_record, Host.after_emit]

/-- A handler is kept on the board. -/
theorem setHandler
    (id : Nat)
    (handler : Script.Value) :
    IgnoresPast (setHandler id handler) := by
  refine bind_get (fun _ _ => rfl) fun _ => ?_
  split
  · exact .modifyBoard _
  · exact .throw _

theorem print (text : String) : IgnoresPast (print text) :=
  bind .checkLive fun _ => .modifyBoard _

theorem printLine (text : String) : IgnoresPast (printLine text) := by
  refine bind .checkLive fun _ => bind_get (fun _ _ => rfl) fun _ =>
    bind (.modifyBoard _) fun _ => .modifyHost fun host past => ?_
  rw [Host.after_record, Host.after_emit]

/-- No native call looks at what the host was told. -/
theorem compositional : Compositional IgnoresPast where
  pure := pure
  throw := throw
  bind := bind
  readBoard _ _ _ := rfl
  display _ _ _ := rfl
  checkLive := checkLive
  createStrip := createStrip
  strip := strip
  changeStrip id change _ := changeStrip id change
  showStrip := showStrip
  createButton := createButton
  setHandler := setHandler
  print := print
  printLine := printLine
  randomBetween _ _ _ _ := rfl
  seedRandom _ := modifyBoard _
  passTime _ := modifyBoard _
  makeArray _ _ _ := rfl

end IgnoresPast

end Native

end LedSketch
