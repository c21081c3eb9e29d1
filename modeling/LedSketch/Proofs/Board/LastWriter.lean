import LedSketch.Proofs.Native.Call
import Mathlib.Data.List.Induction

namespace LedSketch

/-!
# The last writer of a pixel

A strip shows, at every pixel, what the last accepted call that covered the pixel has
written there.  Which calls are accepted depends on the number of pixels only, and the
brightness in force at the time of a frame is the only one that counts.
-/

/-- A scaled channel is a byte, so nothing is cut off but the fraction. -/
theorem Level.toNat_scale (channel brightness : UInt8) :
    (Level.scale channel brightness).toNat = channel.toNat * brightness.toNat / 255 := by
  have channelBound := channel.toNat_lt
  have brightnessBound := brightness.toNat_lt
  have product : channel.toNat * brightness.toNat ≤ 255 * 255 :=
    Nat.mul_le_mul (by omega) (by omega)
  rw [Level.scale, UInt8.toNat_ofNat']
  omega

namespace Strip

/-- A call that may change a strip. -/
inductive Call where
  | setPixel (index : Int) (color : Color)
  | fill (word : UInt32) (first count : Int)
  | clear
  | setBrightness (brightness : UInt8)
  deriving Repr, DecidableEq

namespace Call

/-- What a call makes of a strip, or why the strip refuses it. -/
def perform?
    (call : Call)
    (strip : Strip) :
    Except StripError Strip :=
  match call with
  | .setPixel index color => strip.setPixel index color
  | .fill word first count => strip.fill word first count
  | .clear => .ok strip.clear
  | .setBrightness brightness => .ok (strip.setBrightness brightness)

/-- Whether a strip of `size` pixels is to accept a call. -/
def Accepted (size : Nat) : Call → Prop
  | .setPixel index _ => 0 ≤ index ∧ index < size
  | .fill _ first count => 0 ≤ first ∧ 0 ≤ count ∧ (count = 0 ∨ first + count ≤ size)
  | .clear => True
  | .setBrightness _ => True

/-- Whether a call, once accepted, writes the pixel at an index. -/
def Covers (index : Int) : Call → Prop
  | .setPixel target _ => index = target
  | .fill _ first count => first ≤ index ∧ (count = 0 ∨ index < first + count)
  | .clear => True
  | .setBrightness _ => False

/-- The packed color that a call writes. -/
def word : Call → UInt32
  | .setPixel _ color => color.packed
  | .fill word _ _ => word
  | .clear => 0
  | .setBrightness _ => 0

/-- The brightness that a call sets. -/
def brightness? : Call → Option UInt8
  | .setBrightness brightness => some brightness
  | _ => none

instance (size : Nat) (call : Call) : Decidable (call.Accepted size) := by
  cases call <;> unfold Accepted <;> infer_instance

instance (index : Int) (call : Call) : Decidable (call.Covers index) := by
  cases call <;> unfold Covers <;> infer_instance

/-- The packed color that a call writes at an index, if it writes there. -/
def wordAt?
    (size : Nat)
    (index : Int)
    (call : Call) :
    Option UInt32 :=
  if call.Accepted size ∧ call.Covers index then some call.word else none

end Call

/-- The strip after a call; a refused call leaves it as it is. -/
def perform
    (strip : Strip)
    (call : Call) :
    Strip :=
  match call.perform? strip with
  | .ok changed => changed
  | .error _ => strip

/-- The strip after calls, one after the other. -/
def performAll
    (strip : Strip)
    (calls : List Call) :
    Strip :=
  calls.foldl perform strip

theorem performAll_concat
    (strip : Strip)
    (calls : List Call)
    (call : Call) :
    strip.performAll (calls ++ [call]) = (strip.performAll calls).perform call := by
  simp [performAll]

/-- A registered strip becomes what the call makes of it, also where the call is refused. -/
theorem changeStrip_registered
    {world : World}
    {id : Nat}
    {strip : Strip}
    (live : world.host.live = true)
    (found : world.board.strips[id]? = some strip)
    (call : Call) :
    (Native.runIn world (Native.changeStrip id call.perform?)).2.host = world.host ∧
      (Native.runIn world (Native.changeStrip id call.perform?)).2.board.strips[id]? =
        some (strip.perform call) := by
  rw [Native.changeStrip, Native.runIn_bind, Native.runIn_strip_live live, found]
  dsimp only
  rw [Native.runIn_bind, Native.runIn_ofStrip, perform]
  cases made : call.perform? strip with
  | error error => exact ⟨rfl, found⟩
  | ok changed =>
      have known : id < world.board.strips.size := (Array.getElem?_eq_some_iff.mp found).1
      exact ⟨rfl, Array.getElem?_setIfInBounds_self_of_lt known⟩

/-- The world after native calls that change a registered strip, one after the other. -/
def changeAll
    (id : Nat)
    (world : World)
    (calls : List Call) :
    World :=
  calls.foldl (fun world call => (Native.runIn world (Native.changeStrip id call.perform?)).2)
    world

/-- While its run is current a registered strip becomes what all calls make of it. -/
theorem getElem?_changeAll
    {world : World}
    {id : Nat}
    {strip : Strip}
    (live : world.host.live = true)
    (found : world.board.strips[id]? = some strip)
    (calls : List Call) :
    (changeAll id world calls).board.strips[id]? = some (strip.performAll calls) := by
  induction calls generalizing world strip with
  | nil => exact found
  | cons call later inductionHypothesis =>
      obtain ⟨sameHost, changed⟩ := changeStrip_registered live found call
      exact inductionHypothesis (by rw [sameHost, live]) changed

/-- The packed color of the last accepted call that covered an index; black if none did. -/
def lastWord
    (size : Nat)
    (calls : List Call)
    (index : Int) :
    UInt32 :=
  ((calls.filterMap (Call.wordAt? size index)).getLast?).getD 0

/-- The brightness set last; full brightness if none was set. -/
def lastBrightness (calls : List Call) : UInt8 :=
  ((calls.filterMap Call.brightness?).getLast?).getD 255

theorem lastWord_concat
    (size : Nat)
    (calls : List Call)
    (call : Call)
    (index : Int) :
    lastWord size (calls ++ [call]) index =
      (call.wordAt? size index).getD (lastWord size calls index) := by
  unfold lastWord
  rw [List.filterMap_append]
  cases written : call.wordAt? size index <;> simp [written]

theorem lastBrightness_concat
    (calls : List Call)
    (call : Call) :
    lastBrightness (calls ++ [call]) = call.brightness?.getD (lastBrightness calls) := by
  unfold lastBrightness
  rw [List.filterMap_append]
  cases set : call.brightness? <;> simp [set]

/-- What a call does to a strip that accepts it. -/
structure Performed
    (call : Call)
    (strip changed : Strip) :
    Prop where
  size : changed.size = strip.size
  brightness : changed.brightness = call.brightness?.getD strip.brightness
  pixels :
    ∀ position : Nat,
      changed.pixels[position]? =
        if call.Covers position then
          strip.pixels[position]?.map fun _ => Color.ofPacked call.word
        else
          strip.pixels[position]?

theorem slot_eq_ok_iff
    {strip : Strip}
    {index : Int}
    {position : Nat} :
    strip.slot index = .ok position ↔ index = position ∧ position < strip.size := by
  unfold slot
  split
  · rw [Except.ok.injEq]
    omega
  · simp only [reduceCtorEq, false_iff]
    omega

theorem performed_setPixel
    {strip changed : Strip}
    {index : Int}
    {color : Color}
    (made : strip.setPixel index color = .ok changed) :
    (0 ≤ index ∧ index < strip.size) ∧
      Performed (.setPixel index color) strip changed := by
  unfold setPixel at made
  cases found : strip.slot index with
  | error error =>
      rw [found] at made
      contradiction
  | ok target =>
      obtain ⟨rfl, within⟩ := slot_eq_ok_iff.mp found
      rw [found] at made
      cases made
      refine ⟨by omega, by simp [size], rfl, fun position => ?_⟩
      simp only [Call.Covers, Call.word, Color.ofPacked_packed, Int.natCast_inj,
        Array.getElem?_setIfInBounds]
      by_cases same : target = position
      · subst same
        have present : target < strip.pixels.size := within
        simp [present]
      · simp [same, Ne.symm same]

/-- The pixels of a painted range get the color, the others stay as they are. -/
theorem getElem?_paint
    (strip : Strip)
    (start stop : Nat)
    (color : Color)
    (position : Nat) :
    (strip.paint start stop color).pixels[position]? =
      if start ≤ position ∧ position < stop then
        strip.pixels[position]?.map fun _ => color
      else
        strip.pixels[position]? := by
  simp only [paint, Array.getElem?_mapIdx]
  split <;> simp

/-- A range that begins at the end or behind it has no pixel. -/
theorem paint_of_size_le
    {strip : Strip}
    {start stop : Nat}
    {color : Color}
    (beyond : strip.size ≤ start) :
    strip.paint start stop color = strip := by
  have same : (strip.paint start stop color).pixels = strip.pixels := by
    apply Array.ext_getElem?
    intro position
    rw [getElem?_paint]
    split
    · next inside =>
        have absent : strip.pixels[position]? = none :=
          Array.getElem?_eq_none (by rw [size] at beyond; omega)
        rw [absent]
        rfl
    · rfl
  exact congrArg (fun pixels => { strip with pixels }) same

/-- A count of zero fills to the end. -/
theorem fill_zero
    (strip : Strip)
    (word : UInt32)
    (start : Nat) :
    strip.fill word start 0 = .ok (strip.paint start strip.size (Color.ofPacked word)) := by
  unfold fill
  dsimp only
  rw [if_neg (by omega), if_neg (by omega)]
  simp only [Int.toNat_natCast, if_true]
  split
  · rw [paint_of_size_le (by omega)]
  · next inside =>
      have reached : start + (strip.size - start) = strip.size := by omega
      rw [reached, if_neg (Nat.lt_irrefl _)]

/-- Any other count fills exactly as many pixels, if there are so many. -/
theorem fill_succ
    (strip : Strip)
    (word : UInt32)
    (start length : Nat)
    (positive : 0 < length) :
    strip.fill word start length =
      if strip.size < start + length then
        .error
          (.indexOutOfRange (min ((start + length : Nat) - 1 : Int) largestIndex) strip.size)
      else
        .ok (strip.paint start (start + length) (Color.ofPacked word)) := by
  unfold fill
  dsimp only
  rw [if_neg (by omega), if_neg (by omega)]
  have notZero : length ≠ 0 := by omega
  simp [notZero]

/-- An accepted fill has neither a negative start nor a negative count. -/
theorem exists_nat_of_fill
    {strip changed : Strip}
    {word : UInt32}
    {first count : Int}
    (made : strip.fill word first count = .ok changed) :
    ∃ start length : Nat, first = start ∧ count = length := by
  unfold fill at made
  split at made
  · contradiction
  · split at made
    · contradiction
    · exact ⟨first.toNat, count.toNat, by omega, by omega⟩

theorem performed_fill
    {strip changed : Strip}
    {word : UInt32}
    {first count : Int}
    (made : strip.fill word first count = .ok changed) :
    (Call.fill word first count).Accepted strip.size ∧
      Performed (.fill word first count) strip changed := by
  obtain ⟨start, length, rfl, rfl⟩ := exists_nat_of_fill made
  -- Beyond the last pixel it makes no difference what is covered.
  have painted
      {stop : Nat}
      (same : ∀ position : Nat, position < strip.size →
        (start ≤ position ∧ position < stop ↔
          (Call.fill word start length).Covers position)) :
      Performed (.fill word start length) strip
        (strip.paint start stop (Color.ofPacked word)) := by
    refine ⟨size_paint .., rfl, fun position => ?_⟩
    rw [getElem?_paint]
    by_cases within : position < strip.size
    · exact if_congr (same position within) rfl rfl
    · have absent : strip.pixels[position]? = none :=
        Array.getElem?_eq_none (Nat.le_of_not_lt within)
      simp [absent]
  rcases Nat.eq_zero_or_pos length with rfl | positive
  · rw [Int.natCast_zero, fill_zero] at made
    cases made
    refine ⟨⟨by omega, by omega, .inl rfl⟩, painted fun position within => ?_⟩
    simp only [Call.Covers, Int.natCast_zero, true_or, and_true]
    omega
  · rw [fill_succ _ _ _ _ positive] at made
    split at made
    · contradiction
    · cases made
      refine ⟨⟨by omega, by omega, .inr (by omega)⟩, painted fun position within => ?_⟩
      simp only [Call.Covers]
      omega

theorem performed_clear (strip : Strip) : Performed .clear strip strip.clear where
  size := size_clear strip
  brightness := rfl
  pixels position := by
    have black : Color.ofPacked 0 = Color.black := rfl
    simp [Call.Covers, Call.word, clear, black]

theorem performed_setBrightness
    (strip : Strip)
    (brightness : UInt8) :
    Performed (.setBrightness brightness) strip (strip.setBrightness brightness) :=
  ⟨rfl, rfl, fun _ => (if_neg not_false).symm⟩

/-- A strip makes of a call what the call says, if it accepts the call. -/
theorem performed_of_perform?
    {call : Call}
    {strip changed : Strip}
    (made : call.perform? strip = .ok changed) :
    call.Accepted strip.size ∧ Performed call strip changed := by
  cases call with
  | setPixel index color => exact performed_setPixel made
  | fill word first count => exact performed_fill made
  | clear =>
      cases made
      exact ⟨trivial, performed_clear strip⟩
  | setBrightness brightness =>
      cases made
      exact ⟨trivial, performed_setBrightness strip brightness⟩

/-- Which calls a strip accepts depends on its size only. -/
theorem perform?_eq_ok_iff
    (call : Call)
    (strip : Strip) :
    (∃ changed, call.perform? strip = .ok changed) ↔ call.Accepted strip.size := by
  constructor
  · rintro ⟨changed, made⟩
    exact (performed_of_perform? made).1
  · intro accepted
    cases call with
    | setPixel index color =>
        obtain ⟨position, rfl⟩ := Int.eq_ofNat_of_zero_le accepted.1
        have found : strip.slot position = .ok position :=
          slot_eq_ok_iff.mpr ⟨rfl, Int.ofNat_lt.mp accepted.2⟩
        exact ⟨_, by rw [Call.perform?, setPixel, found]; rfl⟩
    | fill word first count =>
        obtain ⟨notBefore, notNegative, fits⟩ := accepted
        obtain ⟨start, rfl⟩ := Int.eq_ofNat_of_zero_le notBefore
        obtain ⟨length, rfl⟩ := Int.eq_ofNat_of_zero_le notNegative
        unfold Call.perform?
        rcases Nat.eq_zero_or_pos length with rfl | positive
        · exact ⟨_, fill_zero ..⟩
        · have inside : ¬ strip.size < start + length := by omega
          exact ⟨_, (fill_succ _ _ _ _ positive).trans (if_neg inside)⟩
    | clear => exact ⟨_, rfl⟩
    | setBrightness brightness => exact ⟨_, rfl⟩

/-- A strip of `size` pixels that shows what the calls on it have written last. -/
structure ShowsLast
    (size : Nat)
    (calls : List Call)
    (strip : Strip) :
    Prop where
  size_eq : strip.size = size
  brightness_eq : strip.brightness = lastBrightness calls
  pixels :
    ∀ position : Nat,
      position < size →
      strip.pixels[position]? = some (Color.ofPacked (lastWord size calls position))

namespace ShowsLast

variable {size : Nat} {calls : List Call} {strip : Strip}

/-- A new strip is black and has full brightness. -/
theorem create
    {pin : Int64}
    {order : ColorOrder}
    (made : Strip.create size pin order = .ok strip) :
    ShowsLast size [] strip := by
  unfold Strip.create at made
  split at made
  · contradiction
  · cases made
    refine ⟨by simp [Strip.size], rfl, fun position within => ?_⟩
    have black : Color.ofPacked 0 = Color.black := rfl
    simp [lastWord, within, black]

/-- One more call is the last one to write where it is accepted and covers. -/
theorem perform
    (shows : ShowsLast size calls strip)
    (call : Call) :
    ShowsLast size (calls ++ [call]) (strip.perform call) := by
  have accepts := perform?_eq_ok_iff call strip
  rw [shows.size_eq] at accepts
  unfold Strip.perform
  cases made : call.perform? strip with
  | error error =>
      have refused : ¬ call.Accepted size := by
        rw [← accepts, made]
        rintro ⟨changed, impossible⟩
        contradiction
      have noBrightness : call.brightness? = none := by
        cases call with
        | setBrightness brightness => exact absurd trivial refused
        | _ => rfl
      refine ⟨shows.size_eq, ?_, fun position within => ?_⟩
      · rw [lastBrightness_concat, noBrightness]
        exact shows.brightness_eq
      · rw [lastWord_concat, Call.wordAt?, if_neg fun both => refused both.1]
        exact shows.pixels position within
  | ok changed =>
      obtain ⟨accepted, performed⟩ := performed_of_perform? made
      rw [shows.size_eq] at accepted
      refine ⟨performed.size.trans shows.size_eq, ?_, fun position within => ?_⟩
      · rw [performed.brightness, lastBrightness_concat, shows.brightness_eq]
      · rw [performed.pixels, shows.pixels position within, lastWord_concat, Call.wordAt?]
        by_cases covers : call.Covers position
        · rw [if_pos covers, if_pos ⟨accepted, covers⟩]
          rfl
        · rw [if_neg covers, if_neg fun both => covers both.2]
          rfl

theorem performAll
    {pin : Int64}
    {order : ColorOrder}
    (made : Strip.create size pin order = .ok strip)
    (calls : List Call) :
    ShowsLast size calls (strip.performAll calls) := by
  induction calls using List.reverseRecOn with
  | nil => exact .create made
  | append_singleton calls call inductionHypothesis =>
      rw [performAll_concat]
      exact inductionHypothesis.perform call

theorem pixel
    (shows : ShowsLast size calls strip)
    {position : Nat}
    (within : position < size) :
    strip.pixel position = .ok (lastWord size calls position) := by
  have found : strip.slot position = .ok position :=
    slot_eq_ok_iff.mpr ⟨rfl, shows.size_eq ▸ within⟩
  rw [Strip.pixel, found]
  have stored : strip.pixels.getD position Color.black =
      Color.ofPacked (lastWord size calls position) := by
    rw [Array.getD_eq_getD_getElem?, shows.pixels position within]
    rfl
  simp only [bind, Except.bind, stored, Color.packed_ofPacked]
  rfl

/-- A frame has the channels of the stored colors, scaled by the last brightness. -/
theorem frame
    (shows : ShowsLast size calls strip)
    {position : Nat}
    (within : position < size) :
    let color := Color.ofPacked (lastWord size calls position)
    let level := (lastBrightness calls).toNat
    ∃ shown,
      strip.frame[position]? = some shown ∧
        shown.red.toNat = color.red.toNat * level / 255 ∧
        shown.green.toNat = color.green.toNat * level / 255 ∧
        shown.blue.toNat = color.blue.toNat * level / 255 := by
  dsimp only
  rw [Strip.frame, Array.getElem?_map, shows.pixels position within, shows.brightness_eq]
  exact ⟨_, rfl, Level.toNat_scale .., Level.toNat_scale .., Level.toNat_scale ..⟩

end ShowsLast

/--
After any calls on a new strip, every pixel has the packed color of the last accepted call
that covered it, and a frame has the channels of these colors, scaled by the brightness
that was set last and rounded down.  A strip keeps its size, accepts a call exactly if the
size allows it, and is left as it is by a call that it refuses.
-/
theorem last_writer_wins
    (size : Nat)
    (pin : Int64)
    (order : ColorOrder)
    (calls : List Call)
    (positive : 1 ≤ size) :
    ∃ new,
      Strip.create size pin order = .ok new ∧
        (new.performAll calls).size = size ∧
        (∀ index : Int, 0 ≤ index → index < size →
          (new.performAll calls).pixel index = .ok (lastWord size calls index)) ∧
        (∀ call : Call,
          (∃ changed, call.perform? (new.performAll calls) = .ok changed) ↔
            call.Accepted size) ∧
        (∀ call : Call, ¬ call.Accepted size →
          new.performAll (calls ++ [call]) = new.performAll calls) ∧
        (∀ brightness,
          (new.performAll (calls ++ [.setBrightness brightness])).pixels =
            (new.performAll calls).pixels) ∧
        (new.performAll calls).frame.size = size ∧
        ∀ position : Nat, position < size →
          let color := Color.ofPacked (lastWord size calls position)
          let level := (lastBrightness calls).toNat
          ∃ shown,
            (new.performAll calls).frame[position]? = some shown ∧
              shown.red.toNat = color.red.toNat * level / 255 ∧
              shown.green.toNat = color.green.toNat * level / 255 ∧
              shown.blue.toNat = color.blue.toNat * level / 255 := by
  obtain ⟨new, made⟩ : ∃ new, Strip.create size pin order = .ok new := by
    unfold create
    rw [if_neg (by omega)]
    exact ⟨_, rfl⟩
  have shows := ShowsLast.performAll made calls
  have accepts (call : Call) := perform?_eq_ok_iff call (new.performAll calls)
  rw [shows.size_eq] at accepts
  refine ⟨new, made, shows.size_eq, ?_, accepts, ?_, fun brightness => ?_, ?_, ?_⟩
  · intro index notNegative within
    obtain ⟨position, rfl⟩ := Int.eq_ofNat_of_zero_le notNegative
    exact shows.pixel (Int.ofNat_lt.mp within)
  · intro call refused
    rw [performAll_concat, perform]
    split
    · next changed accepted => exact absurd ((accepts call).mp ⟨changed, accepted⟩) refused
    · rfl
  · rw [performAll_concat]
    rfl
  · rw [size_frame]
    exact shows.size_eq
  · exact fun position within => shows.frame within

/-- Two pixels: both filled, one set again, two refused calls, shown at half brightness. -/
theorem last_writer_wins_on_two_pixels :
    1 ≤ 2 ∧
      let calls : List Call :=
        [.fill 0x00102030 0 0, .setPixel 2 Color.black, .setPixel 1 ⟨200, 100, 50, 7⟩,
          .fill 0x00ffffff 1 2, .setBrightness 128]
      ∃ new,
        Strip.create 2 6 .grb = .ok new ∧
          (new.performAll calls).pixel 0 = .ok 0x00102030 ∧
          (new.performAll calls).pixel 1 = .ok 0x07c86432 ∧
          ∃ shown,
            (new.performAll calls).frame[1]? = some shown ∧
              shown.red.toNat = 100 ∧ shown.green.toNat = 50 ∧ shown.blue.toNat = 25 := by
  refine ⟨by decide, ?_⟩
  intro calls
  obtain ⟨new, made, _, pixel, _, _, _, _, frame⟩ :=
    last_writer_wins 2 6 .grb calls (by decide)
  have color : Color.ofPacked (lastWord 2 calls 1) = ⟨200, 100, 50, 7⟩ := by decide
  have level : (lastBrightness calls).toNat = 128 := by decide
  obtain ⟨shown, isShown, channels⟩ := frame 1 (by decide)
  rw [Int.natCast_one, color, level] at channels
  exact ⟨new, made, pixel 0 (by decide) (by decide), pixel 1 (by decide) (by decide),
    shown, isShown, channels⟩

/-- The last writer wins also on a strip that a script has made and calls methods of. -/
theorem registered_strip_shows_last
    {size id : Nat}
    {pin : Int64}
    {order : ColorOrder}
    {new : Strip}
    {world : World}
    (made : Strip.create size pin order = .ok new)
    (live : world.host.live = true)
    (registered : world.board.strips[id]? = some new)
    (calls : List Call) :
    ∃ strip,
      (changeAll id world calls).board.strips[id]? = some strip ∧ ShowsLast size calls strip :=
  ⟨_, getElem?_changeAll live registered calls, .performAll made calls⟩

end Strip

end LedSketch
