import LedSketch.Proofs.Native.Composition
import Mathlib.Logic.Relation

namespace LedSketch

/-!
# Effects of native calls

Whatever a native call does to the world is a sequence of effects of a few kinds.
An effect that reaches the host is there only for the current run, and none of
them touches the click queue.
-/

open Relation (ReflTransGen)

namespace World

/-- The world with one more strip, announced to the host. -/
def addStrip
    (world : World)
    (count : Nat)
    (pin : Int64)
    (order : ColorOrder)
    (strip : Strip) :
    World :=
  { world with
    board := { world.board with strips := world.board.strips.push strip }
    host :=
      (world.host.record (.stripCreated world.board.strips.size count pin order)).emit
        (.stripCreated world.board.strips.size pin count) }

/-- The world with one more button, announced to the host. -/
def addButton
    (world : World)
    (label : String) :
    World :=
  { world with
    board := { world.board with buttons := world.board.buttons.push ⟨label, none⟩ }
    host :=
      (world.host.record (.buttonCreated world.board.buttons.size label)).emit
        (.buttonCreated world.board.buttons.size label) }

/-- The world after the serial line is completed with a text. -/
def endLine
    (world : World)
    (text : String) :
    World :=
  let line := world.board.pendingLine ++ text
  { world with
    board := { world.board with pendingLine := "" }
    host := (world.host.record (.serialLine line)).emit (.serialLine line) }

end World

namespace Native

/-- The kinds of changes that native calls are made of. -/
inductive Effect (world : World) : World → Prop where
  | arrayMade (items : Array Script.Value) :
      Effect world { world with heap := (world.heap.allocate items).2 }
  | timePassed (pass : Clock → Clock) :
      Effect world
        { world with board := { world.board with clock := pass world.board.clock } }
  | randomChanged (random : Random) :
      Effect world { world with board := { world.board with random } }
  | stripMade
      {count : Nat}
      {pin : Int64}
      {order : ColorOrder}
      {strip : Strip}
      (live : world.host.live = true)
      (made : Strip.create count pin order = .ok strip) :
      Effect world (world.addStrip count pin order strip)
  | stripChanged
      {id : Nat}
      {old changed : Strip}
      (live : world.host.live = true)
      (found : world.board.strips[id]? = some old)
      (sameSize : changed.size = old.size) :
      Effect world
        { world with
          board := { world.board with
            strips := world.board.strips.setIfInBounds id changed } }
  | frameShown
      {id : Nat}
      {strip : Strip}
      (live : world.host.live = true)
      (found : world.board.strips[id]? = some strip) :
      Effect world { world with host := world.host.emit (.frameShown id strip.frame) }
  | buttonMade
      (label : String)
      (live : world.host.live = true) :
      Effect world (world.addButton label)
  | handlerSet
      {id : Nat}
      (handler : Script.Value)
      (known : id < world.board.buttons.size) :
      Effect world
        { world with
          board := { world.board with
            buttons := world.board.buttons.modify id fun button =>
              { button with handler := some handler } } }
  | printed
      (text : String)
      (live : world.host.live = true) :
      Effect world
        { world with
          board := { world.board with pendingLine := world.board.pendingLine ++ text } }
  | linePrinted
      (text : String)
      (live : world.host.live = true) :
      Effect world (world.endLine text)

/-- Some effects, one after the other. -/
abbrev Effects : World → World → Prop := ReflTransGen Effect

/-- A native call does nothing to a world but a sequence of effects. -/
def Acts (call : Native α) : Prop :=
  ∀ world, Effects world (runIn world call).2

namespace Acts

variable {α β : Type}

/-- A call that leaves the world as it is acts by doing nothing. -/
theorem of_world_eq
    {call : Native α}
    (same : ∀ world, (runIn world call).2 = world) :
    Acts call := by
  intro world
  rw [same]

/-- Calls one after the other act, if both do. -/
theorem bind
    {call : Native α}
    {next : α → Native β}
    (first : Acts call)
    (later : ∀ result, Acts (next result)) :
    Acts (call >>= next) :=
  related_runIn_bind .trans first later

/-- What is done only after the check of the current run is done in that run. -/
theorem bind_checkLive
    {next : Unit → Native α}
    (later : ∀ world, world.host.live = true → Effects world (runIn world (next ())).2) :
    Acts (Native.checkLive >>= next) := by
  intro world
  rw [runIn_bind, runIn_checkLive]
  cases live : world.host.live with
  | false => exact .refl
  | true => exact later world live

theorem createStrip
    (pixelCount pin : Int64)
    (order : ColorOrder) :
    Acts (createStrip pixelCount pin order) := by
  refine bind_checkLive fun world live => ?_
  split
  · exact .refl
  · rw [runIn_bind, runIn_ofStrip]
    cases made : Strip.create pixelCount.toInt.toNat pin order with
    | error error => exact .refl
    | ok strip => exact .single (.stripMade live made)

theorem strip (id : Nat) : Acts (strip id) := by
  refine of_world_eq fun world => ?_
  cases live : world.host.live with
  | false => rw [runIn_strip_stale live]
  | true =>
      rw [runIn_strip_live live]
      split <;> rfl

/-- What is done with a registered strip is done in the current run. -/
theorem bind_strip
    {id : Nat}
    {next : Strip → Native α}
    (later :
      ∀ world found,
        world.host.live = true →
        world.board.strips[id]? = some found →
        Effects world (runIn world (next found)).2) :
    Acts (Native.strip id >>= next) := by
  intro world
  rw [runIn_bind]
  cases live : world.host.live with
  | false => rw [runIn_strip_stale live]
  | true =>
      rw [runIn_strip_live live]
      cases found : world.board.strips[id]? with
      | none => exact .refl
      | some strip => exact later world strip live found

/-- A strip that is changed keeps its size. -/
theorem changeStrip
    (id : Nat)
    {change : Strip → Except StripError Strip}
    (keepsSize : ∀ old changed, change old = .ok changed → changed.size = old.size) :
    Acts (changeStrip id change) := by
  refine bind_strip fun world old live found => ?_
  rw [runIn_bind, runIn_ofStrip]
  cases made : change old with
  | error error => exact .refl
  | ok changed => exact .single (.stripChanged live found (keepsSize old changed made))

theorem showStrip (id : Nat) : Acts (showStrip id) :=
  bind_strip fun _ _ live found => .single (.frameShown live found)

theorem createButton (label : String) : Acts (createButton label) :=
  bind_checkLive fun _ live => .single (.buttonMade label live)

theorem setHandler
    (id : Nat)
    (handler : Script.Value) :
    Acts (setHandler id handler) := by
  intro world
  rw [Native.setHandler, runIn_bind, runIn_get]
  dsimp only
  split
  · next known => exact .single (.handlerSet handler known)
  · exact .refl

theorem print (text : String) : Acts (print text) :=
  bind_checkLive fun _ live => .single (.printed text live)

theorem printLine (text : String) : Acts (printLine text) :=
  bind_checkLive fun _ live => .single (.linePrinted text live)

/-- Every native call is a sequence of effects. -/
theorem compositional : Compositional Acts where
  pure _ := of_world_eq fun _ => rfl
  throw _ := of_world_eq fun _ => rfl
  bind := bind
  readBoard _ := of_world_eq fun _ => rfl
  display _ := of_world_eq fun _ => rfl
  checkLive := of_world_eq fun world => by rw [runIn_checkLive]
  createStrip := createStrip
  strip := strip
  changeStrip := changeStrip
  showStrip := showStrip
  createButton := createButton
  setHandler := setHandler
  print := print
  printLine := printLine
  randomBetween _ _ _ := .single (.randomChanged _)
  seedRandom _ _ := .single (.randomChanged _)
  passTime pass _ := .single (.timePassed pass)
  makeArray items _ := .single (.arrayMade items)

end Acts

namespace Effect

variable {world changed : World}

/-- No effect makes a run live or stale. -/
theorem live_eq (effect : Effect world changed) : changed.host.live = world.host.live := by
  cases effect <;> rfl

/-- No effect takes a click. -/
theorem clicks_eq (effect : Effect world changed) :
    changed.host.clicks = world.host.clicks := by
  cases effect <;> rfl

/-- What the host has been told stays told. -/
theorem events_prefix (effect : Effect world changed) :
    world.host.events.toList <+: changed.host.events.toList := by
  cases effect <;>
    first
    | exact List.prefix_refl _
    | exact ⟨[_], Array.toList_push.symm⟩

/-- Nothing that a stale run does reaches its host. -/
theorem host_eq_of_stale
    (effect : Effect world changed)
    (stale : world.host.live = false) :
    changed.host = world.host := by
  cases effect <;> first | rfl | simp_all

end Effect

namespace Effects

variable {world changed : World}

/-- No native call makes a run live or stale. -/
theorem live_eq (effects : Effects world changed) : changed.host.live = world.host.live := by
  induction effects with
  | refl => rfl
  | tail _ last inductionHypothesis => rw [last.live_eq, inductionHypothesis]

/-- No native call takes a click. -/
theorem clicks_eq (effects : Effects world changed) :
    changed.host.clicks = world.host.clicks := by
  induction effects with
  | refl => rfl
  | tail _ last inductionHypothesis => rw [last.clicks_eq, inductionHypothesis]

/-- A native call adds events behind those that are there. -/
theorem events_prefix (effects : Effects world changed) :
    world.host.events.toList <+: changed.host.events.toList := by
  induction effects with
  | refl => exact List.prefix_refl _
  | tail _ last inductionHypothesis => exact inductionHypothesis.trans last.events_prefix

/-- A native call of a stale run leaves the host as it is. -/
theorem host_eq_of_stale
    (effects : Effects world changed)
    (stale : world.host.live = false) :
    changed.host = world.host := by
  induction effects with
  | refl => rfl
  | tail earlier last inductionHypothesis =>
      rw [last.host_eq_of_stale ((Effects.live_eq earlier).trans stale), inductionHypothesis]

end Effects

end Native

end LedSketch
