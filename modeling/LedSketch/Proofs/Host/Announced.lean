import LedSketch.Proofs.Native.Effect

namespace LedSketch

/-!
# Announced strips and buttons

A host learns of strips and buttons from the events of a run.  Every event fits what the
events before it have announced, because they announce all that the board holds.
-/

namespace Event

/-- The strip that an event announces, and its number of pixels. -/
def strip? : Event → Option (Nat × Nat)
  | .stripCreated id _ count => some (id, count)
  | _ => none

/-- The button that an event announces. -/
def button? : Event → Option Nat
  | .buttonCreated id _ => some id
  | _ => none

/-- The strips that some events announce, each with its number of pixels. -/
def strips (events : List Event) : List (Nat × Nat) := events.filterMap strip?

/-- The buttons that some events announce. -/
def buttons (events : List Event) : List Nat := events.filterMap button?

/-- Strips are announced one list of events after the other. -/
theorem strips_append (earlier later : List Event) :
    strips (earlier ++ later) = strips earlier ++ strips later :=
  List.filterMap_append

theorem buttons_append (earlier later : List Event) :
    buttons (earlier ++ later) = buttons earlier ++ buttons later :=
  List.filterMap_append

/-- What a host can rely on in the events of one run. -/
structure WellFormed (events : List Event) : Prop where
  stripsInOrder : (strips events).map Prod.fst = List.range (strips events).length
  pixels : ∀ id count, (id, count) ∈ strips events → 0 < count
  buttonsInOrder : buttons events = List.range (buttons events).length
  framesFit :
    ∀ earlier id colors later,
      events = earlier ++ .frameShown id colors :: later →
      (id, colors.size) ∈ strips earlier

/-- A list that begins a list of the first numbers has the first numbers itself. -/
theorem eq_range_of_append
    {earlier later : List Nat}
    {count : Nat}
    (whole : earlier ++ later = List.range count) :
    earlier = List.range earlier.length := by
  have enough : earlier.length ≤ count := by
    have counted := congrArg List.length whole
    simp only [List.length_append, List.length_range] at counted
    omega
  have taken := congrArg (List.take earlier.length) whole
  rwa [List.take_left, List.take_range, Nat.min_eq_left enough] at taken

namespace WellFormed

/-- No events are well formed. -/
theorem nil : WellFormed [] where
  stripsInOrder := rfl
  pixels := by simp [strips]
  buttonsInOrder := rfl
  framesFit := by simp

/-- The events until some moment are well formed if all events are. -/
theorem of_append
    {earlier later : List Event}
    (whole : WellFormed (earlier ++ later)) :
    WellFormed earlier where
  stripsInOrder := by
    have inOrder := whole.stripsInOrder
    rw [strips_append, List.map_append] at inOrder
    simpa using eq_range_of_append inOrder
  pixels id count announced :=
    whole.pixels id count (strips_append .. ▸ List.mem_append_left _ announced)
  buttonsInOrder := by
    have inOrder := whole.buttonsInOrder
    rw [buttons_append] at inOrder
    exact eq_range_of_append inOrder
  framesFit before id colors after split :=
    whole.framesFit before id colors (after ++ later) (by rw [split]; simp)

/-- One more event is well formed if it fits what has been announced. -/
theorem concat
    {events : List Event}
    {event : Event}
    (soFar : WellFormed events)
    (strip :
      ∀ id count, event.strip? = some (id, count) →
        id = (strips events).length ∧ 0 < count)
    (button : ∀ id, event.button? = some id → id = (buttons events).length)
    (frame :
      ∀ id colors, event = .frameShown id colors → (id, colors.size) ∈ strips events) :
    WellFormed (events ++ [event]) where
  stripsInOrder := by
    rw [strips_append]
    cases announced : event.strip? with
    | none =>
        have none : strips [event] = [] := by simp [strips, announced]
        rw [none, List.append_nil]
        exact soFar.stripsInOrder
    | some entry =>
        obtain ⟨next, positive⟩ := strip entry.1 entry.2 announced
        have one : strips [event] = [entry] := by simp [strips, announced]
        rw [one, List.map_append, List.length_append, List.length_singleton,
          List.range_succ, soFar.stripsInOrder, List.map_singleton, next]
  pixels id count announced := by
    rw [strips_append] at announced
    rcases List.mem_append.mp announced with before | last
    · exact soFar.pixels id count before
    · have itself : event.strip? = some (id, count) := by simpa [strips] using last
      exact (strip id count itself).2
  buttonsInOrder := by
    rw [buttons_append]
    cases announced : event.button? with
    | none =>
        have none : buttons [event] = [] := by simp [buttons, announced]
        rw [none, List.append_nil]
        exact soFar.buttonsInOrder
    | some id =>
        have one : buttons [event] = [id] := by simp [buttons, announced]
        rw [one, List.length_append, List.length_singleton, List.range_succ,
          ← soFar.buttonsInOrder, button id announced]
  framesFit earlier id colors later split := by
    rcases List.eq_nil_or_concat later with rfl | ⟨others, last, rfl⟩
    · obtain ⟨rfl, same⟩ := List.append_inj' split rfl
      exact frame id colors (List.singleton_inj.mp same)
    · rw [List.concat_eq_append, ← List.cons_append, ← List.append_assoc] at split
      exact soFar.framesFit earlier id colors others (List.append_inj' split rfl).1

/-- Events that announce nothing and show no frame keep a trace well formed. -/
theorem concat_other
    {events : List Event}
    {event : Event}
    (soFar : WellFormed events)
    (noStrip : event.strip? = none)
    (noButton : event.button? = none)
    (noFrame : ∀ id colors, event ≠ .frameShown id colors) :
    WellFormed (events ++ [event]) :=
  soFar.concat (by simp [noStrip]) (by simp [noButton])
    fun id colors same => (noFrame id colors same).elim

end WellFormed

/-- What a host can rely on in all events: those after each reset are well formed. -/
def Traced (events : List Event) : Prop :=
  ∀ before segment after,
    events = before ++ .reset :: (segment ++ after) →
    .reset ∉ segment →
    WellFormed segment

/-- No events are traced. -/
theorem Traced.nil : Traced [] := by
  intro before segment after split
  simp at split

/-- One more reset, with well formed events after it. -/
theorem Traced.append_reset
    {shown told : List Event}
    (traced : Traced shown)
    (wellFormed : WellFormed told)
    (noReset : .reset ∉ told) :
    Traced (shown ++ .reset :: told) := by
  intro before segment after split quiet
  rcases List.append_eq_append_iff.mp split with
      ⟨more, rfl, later⟩ | ⟨more, rfl, later⟩
  · cases more with
    | nil =>
        obtain rfl : told = segment ++ after := List.tail_eq_of_cons_eq later
        exact wellFormed.of_append
    | cons first more =>
        obtain rfl : told = more ++ .reset :: (segment ++ after) :=
          List.tail_eq_of_cons_eq later
        simp at noReset
  · cases more with
    | nil =>
        obtain rfl : segment ++ after = told := List.tail_eq_of_cons_eq later
        exact wellFormed.of_append
    | cons first more =>
        obtain ⟨rfl, rest⟩ := List.cons_eq_cons.mp later
        rcases List.append_eq_append_iff.mp rest with
            ⟨others, rfl, _⟩ | ⟨others, rfl, isReset⟩
        · exact traced before segment others rfl quiet
        · cases others with
          | nil => exact traced before _ [] (by simp) (by simpa using quiet)
          | cons next others =>
              obtain ⟨rfl, _⟩ := List.cons_eq_cons.mp isReset
              simp at quiet

end Event

/-- A board whose strips and buttons are those that some events of its run announce. -/
structure Board.Announced
    (board : Board)
    (events : List Event) :
    Prop where
  wellFormed : Event.WellFormed events
  noReset : .reset ∉ events
  strips :
    ∀ id : Nat,
      (Event.strips events)[id]? = board.strips[id]?.map fun strip => (id, strip.size)
  buttons : Event.buttons events = List.range board.buttons.size

namespace Board.Announced

variable {board : Board} {events : List Event}

/-- A new board has announced nothing. -/
theorem create
    (seed : UInt64)
    (defaultOrder : ColorOrder) :
    (Board.create seed defaultOrder).Announced [] where
  wellFormed := .nil
  noReset := by simp
  strips := by simp [Board.create, Event.strips]
  buttons := rfl

/-- As many strips are announced as there are. -/
theorem length_strips (announced : board.Announced events) :
    (Event.strips events).length = board.strips.size := by
  apply Nat.le_antisymm
  · rw [← List.getElem?_eq_none_iff, announced.strips]
    simp
  · have none := List.getElem?_eq_none_iff.mpr (Nat.le_refl (Event.strips events).length)
    rw [announced.strips] at none
    simpa using none

/-- A strip of the board has been announced with the size that it has. -/
theorem mem_strips
    {id : Nat}
    {strip : Strip}
    (announced : board.Announced events)
    (found : board.strips[id]? = some strip) :
    (id, strip.size) ∈ Event.strips events := by
  apply List.mem_of_getElem? (i := id)
  rw [announced.strips, found]
  rfl

/-- What is announced depends on the sizes of the strips and the number of buttons only. -/
theorem of_same
    {changed : Board}
    (announced : board.Announced events)
    (sameStrips :
      ∀ id : Nat, changed.strips[id]?.map Strip.size = board.strips[id]?.map Strip.size)
    (sameButtons : changed.buttons.size = board.buttons.size) :
    changed.Announced events where
  wellFormed := announced.wellFormed
  noReset := announced.noReset
  strips id := by
    have same := congrArg (Option.map (Prod.mk id)) (sameStrips id)
    rw [Option.map_map, Option.map_map] at same
    rw [announced.strips]
    exact same.symm
  buttons := by rw [announced.buttons, sameButtons]

/-- One more event that announces nothing and fits what is announced. -/
theorem tell
    {event : Event}
    (announced : board.Announced events)
    (wellFormed : Event.WellFormed (events ++ [event]))
    (noStrip : event.strip? = none)
    (noButton : event.button? = none)
    (noReset : event ≠ .reset) :
    board.Announced (events ++ [event]) where
  wellFormed := wellFormed
  noReset := by simpa [announced.noReset] using noReset.symm
  strips id := by
    rw [Event.strips_append, ← announced.strips]
    simp [Event.strips, noStrip]
  buttons := by
    rw [Event.buttons_append, ← announced.buttons]
    simp [Event.buttons, noButton]

/-- A strip is announced when it is made. -/
theorem addStrip
    {count : Nat}
    {strip : Strip}
    (announced : board.Announced events)
    (pin : Int64)
    (positive : 0 < count)
    (sized : strip.size = count) :
    Board.Announced { board with strips := board.strips.push strip }
      (events ++ [.stripCreated board.strips.size pin count]) where
  wellFormed := by
    refine announced.wellFormed.concat ?_ (by simp [Event.button?]) (by simp)
    rintro id pixels ⟨⟩
    exact ⟨announced.length_strips.symm, positive⟩
  noReset := by simp [announced.noReset]
  strips id := by
    have one :
        Event.strips [.stripCreated board.strips.size pin count] =
          [(board.strips.size, count)] :=
      rfl
    rw [Event.strips_append, one, Array.getElem?_push]
    split
    · next isNew => simp [isNew, ← announced.length_strips, sized]
    · next notNew =>
        rw [← announced.strips]
        rw [← announced.length_strips] at notNew ⊢
        rcases Nat.lt_or_gt_of_ne notNew with isOld | beyond
        · exact List.getElem?_append_left isOld
        · have after : (Event.strips events ++ [(board.strips.size, count)]).length ≤ id := by
            rw [List.length_append]
            exact beyond
          rw [announced.length_strips, List.getElem?_eq_none after,
            List.getElem?_eq_none (Nat.le_of_lt beyond)]
  buttons := by
    rw [Event.buttons_append, announced.buttons]
    exact List.append_nil _

/-- A button is announced when it is made. -/
theorem addButton
    {button : Button}
    (announced : board.Announced events)
    (label : String) :
    Board.Announced { board with buttons := board.buttons.push button }
      (events ++ [.buttonCreated board.buttons.size label]) where
  wellFormed := by
    refine announced.wellFormed.concat (by simp [Event.strip?]) ?_ (by simp)
    rintro id ⟨⟩
    rw [announced.buttons, List.length_range]
  noReset := by simp [announced.noReset]
  strips id := by
    rw [Event.strips_append, ← announced.strips]
    exact congrArg (fun known => known[id]?) (List.append_nil _)
  buttons := by
    rw [Event.buttons_append, announced.buttons, Array.size_push, List.range_succ]
    rfl

/-- A frame is shown of a strip that is announced. -/
theorem showFrame
    {id : Nat}
    {strip : Strip}
    (announced : board.Announced events)
    (found : board.strips[id]? = some strip) :
    board.Announced (events ++ [.frameShown id strip.frame]) := by
  refine announced.tell ?_ rfl rfl Event.noConfusion
  refine announced.wellFormed.concat (by simp [Event.strip?]) (by simp [Event.button?]) ?_
  rintro _ _ ⟨⟩
  rw [Strip.size_frame]
  exact announced.mem_strips found

/-- A line needs no announcement. -/
theorem printLine
    (announced : board.Announced events)
    (text : String) :
    board.Announced (events ++ [.serialLine text]) :=
  announced.tell (announced.wellFormed.concat_other rfl rfl fun _ _ => Event.noConfusion)
    rfl rfl Event.noConfusion

end Board.Announced

/-- Since some past events, the host has been told exactly of what the board holds. -/
def World.Accounted
    (world : World)
    (past : List Event) :
    Prop :=
  ∃ told, world.host.events.toList = past ++ told ∧ world.board.Announced told

/-- A strip that is made has the size that was asked for. -/
theorem Strip.create_size
    {count : Nat}
    {pin : Int64}
    {order : ColorOrder}
    {strip : Strip}
    (made : Strip.create count pin order = .ok strip) :
    0 < count ∧ strip.size = count := by
  unfold Strip.create at made
  split at made
  · contradiction
  · next nonzero =>
      cases made
      exact ⟨Nat.pos_of_ne_zero nonzero, Array.size_replicate⟩

namespace Native

/-- An effect on the board that the host should know of is announced to it. -/
theorem Effect.accounted
    {world changed : World}
    {past : List Event}
    (effect : Effect world changed)
    (accounted : world.Accounted past) :
    changed.Accounted past := by
  obtain ⟨told, events, announced⟩ := accounted
  have pushed (event : Event) :
      (world.host.events.push event).toList = past ++ (told ++ [event]) := by
    rw [Array.toList_push, events, List.append_assoc]
  cases effect with
  | arrayMade | timePassed | randomChanged => exact ⟨told, events, { announced with }⟩
  | printed text live => exact ⟨told, events, { announced with }⟩
  | stripMade live made =>
      obtain ⟨positive, sized⟩ := Strip.create_size made
      exact ⟨_, pushed _, announced.addStrip _ positive sized⟩
  | @stripChanged id old strip live found sameSize =>
      refine ⟨told, events, announced.of_same (fun other => ?_) rfl⟩
      rw [Array.getElem?_setIfInBounds]
      split
      · next same =>
          obtain ⟨inBounds, _⟩ := Array.getElem?_eq_some_iff.mp found
          subst same
          rw [if_pos inBounds, found, Option.map_some, Option.map_some, sameSize]
      · rfl
  | frameShown live found => exact ⟨_, pushed _, announced.showFrame found⟩
  | buttonMade label live => exact ⟨_, pushed _, announced.addButton label⟩
  | handlerSet handler known =>
      exact ⟨told, events, announced.of_same (fun _ => rfl) (Array.size_modify ..)⟩
  | linePrinted text live =>
      refine ⟨_, pushed _, ?_⟩
      exact { announced.printLine _ with }

/-- A native call announces what it changes. -/
theorem Effects.accounted
    {world changed : World}
    {past : List Event}
    (effects : Effects world changed)
    (accounted : world.Accounted past) :
    changed.Accounted past := by
  induction effects with
  | refl => exact accounted
  | tail earlier last inductionHypothesis => exact last.accounted inductionHypothesis

end Native

end LedSketch
