import LedSketch.Native.Builtin
import LedSketch.Native.Method

namespace LedSketch.Native

/-!
# Running native calls

What the parts of a native call do to a world.  A call of several parts runs the
later ones in the world that the earlier ones left, unless one of them fails.
-/

variable {α β : Type}

/-- Later parts run only after a success, in the world that it left. -/
theorem runIn_bind
    (world : World)
    (call : Native α)
    (next : α → Native β) :
    runIn world (call >>= next) =
      match runIn world call with
      | (.ok result, after) => runIn after (next result)
      | (.error fault, after) => (.error fault, after) := by
  simp only [runIn, ExceptT.run_bind, StateT.run_bind]
  rcases call.run.run world with ⟨_ | _, _⟩ <;> rfl

/-- What each part of a call does to the world, the parts do to it one after the other. -/
theorem related_runIn_bind
    {related : World → World → Prop}
    {call : Native α}
    {next : α → Native β}
    (trans :
      ∀ {before between after},
        related before between → related between after → related before after)
    (first : ∀ world, related world (runIn world call).2)
    (later : ∀ result world, related world (runIn world (next result)).2)
    (world : World) :
    related world (runIn world (call >>= next)).2 := by
  have changed := first world
  rw [runIn_bind]
  split
  · next result between ran =>
      rw [ran] at changed
      exact trans changed (later result between)
  · next fault after ran =>
      rwa [ran] at changed

@[simp] theorem runIn_pure
    (world : World)
    (result : α) :
    runIn world (pure result) = (.ok result, world) := rfl

@[simp] theorem runIn_throw
    (world : World)
    (fault : Script.CallFault) :
    runIn world (throw fault : Native α) = (.error fault, world) := rfl

@[simp] theorem runIn_get (world : World) :
    runIn world get = (.ok world, world) := rfl

@[simp] theorem runIn_modifyHost
    (world : World)
    (change : Host → Host) :
    runIn world (modifyHost change) =
      (.ok (), { world with host := change world.host }) := rfl

@[simp] theorem runIn_ofStrip
    (world : World)
    (result : Except StripError α) :
    runIn world (ofStrip result) = (result.mapError .strip, world) := by
  cases result <;> rfl

/-- A call that needs the current run fails in any other one. -/
@[simp] theorem runIn_checkLive (world : World) :
    runIn world checkLive =
      (if world.host.live then .ok () else .error .superseded, world) := by
  cases live : world.host.live <;> simp [checkLive, runIn_bind, live]

theorem runIn_strip_live
    {world : World}
    (live : world.host.live = true)
    (id : Nat) :
    runIn world (strip id) =
      match world.board.strips[id]? with
      | some found => (.ok found, world)
      | none => (.error (.type (.unknownStrip id)), world) := by
  rw [strip, runIn_bind, runIn_checkLive, live]
  simp only [↓reduceIte, runIn_bind, runIn_get]
  split <;> simp_all

theorem runIn_strip_stale
    {world : World}
    (stale : world.host.live = false)
    (id : Nat) :
    runIn world (strip id) = (.error .superseded, world) := by
  rw [strip, runIn_bind, runIn_checkLive, stale]
  rfl

end LedSketch.Native
