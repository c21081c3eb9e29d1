namespace LedSketch

/-!
# Click queue

Presses of buttons wait in a queue of sixteen places until the run takes them.
-/

/-- The presses that wait, oldest first. -/
structure ClickQueue where
  waiting : List Nat
  deriving Repr, DecidableEq

namespace ClickQueue

/-- The number of places. -/
def capacity : Nat := 16

/-- The queue in which no press waits. -/
def empty : ClickQueue := ⟨[]⟩

/-- Whether no press waits. -/
def isEmpty (queue : ClickQueue) : Bool := queue.waiting.isEmpty

/-- Queue a press, unless every place is taken. -/
def press?
    (queue : ClickQueue)
    (button : Nat) :
    Option ClickQueue :=
  if queue.waiting.length < capacity then
    some ⟨queue.waiting ++ [button]⟩
  else
    none

/-- Take the oldest press. -/
def take? (queue : ClickQueue) : Option (Nat × ClickQueue) :=
  match queue.waiting with
  | [] => none
  | button :: rest => some (button, ⟨rest⟩)

/-- An accepted press waits behind all others. -/
theorem waiting_press?
    {queue pressed : ClickQueue}
    {button : Nat}
    (accepted : queue.press? button = some pressed) :
    pressed.waiting = queue.waiting ++ [button] := by
  unfold press? at accepted
  split at accepted
  · cases accepted
    rfl
  · contradiction

/-- A queue within its capacity stays within it. -/
theorem length_press?
    {queue pressed : ClickQueue}
    {button : Nat}
    (accepted : queue.press? button = some pressed) :
    pressed.waiting.length ≤ capacity := by
  unfold press? at accepted
  split at accepted
  · next room =>
      cases accepted
      simp only [List.length_append, List.length_singleton]
      omega
  · contradiction

end ClickQueue

end LedSketch
