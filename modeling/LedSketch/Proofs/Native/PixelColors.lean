import LedSketch.Proofs.Board.LastWriter

namespace LedSketch

/-!
# Colors of pixels

A sketch gives the color of a pixel as channels or as one packed word.  Both forms store
the same color, which is read back as the packed word.
-/

namespace Script.Value

/-- Whether a value is an integer or a truth value. -/
def isIntegral : Value → Bool
  | .int _ => true
  | .bool _ => true
  | _ => false

/-- The integer of an integer or a truth value. -/
theorem exists_toInt64_of_isIntegral
    {value : Value}
    (integral : value.isIntegral = true) :
    ∃ number, value.toInt64 = .ok number := by
  cases value with
  | bool truth => exact ⟨_, rfl⟩
  | int number => exact ⟨_, rfl⟩
  | _ => contradiction

end Script.Value

namespace Native

open Script

/-- A packed color that a sketch computes with keeps all of its bits. -/
theorem toUInt32_ofNat_toNat (word : UInt32) :
    (Int64.ofNat word.toNat).toUInt64.toUInt32 = word := by
  have small := word.toNat_lt
  rw [← UInt32.toNat_inj]
  simp

/-- The low 32 bits of an integer are its remainder, without a sign. -/
theorem toNat_lowBits (given : Int64) :
    (given.toUInt64.toUInt32.toNat : Int) = given.toInt % 4294967296 := by
  have signed : given.toInt = given.toBitVec.toInt := rfl
  rw [UInt64.toNat_toUInt32, signed, BitVec.toInt_eq_toNat_cond, Int64.toNat_toBitVec]
  split <;> omega

/-- The low 32 bits of an integer, as a number. -/
theorem toInt_colorValue (given : Int64) :
    (Int64.ofNat given.toUInt64.toUInt32.toNat).toInt = given.toInt % 4294967296 := by
  have small := given.toUInt64.toUInt32.toNat_lt
  rw [Int64.toInt_ofNat_of_lt (by omega), toNat_lowBits]

section Arguments

variable {arguments : List Value}

/-- Channels are counted from the first one on. -/
theorem channel_cons
    (first : Value)
    (position : Nat) :
    Arguments.channel (first :: arguments) (position + 1) =
      Arguments.channel arguments position :=
  rfl

/-- Channels that are left out are off. -/
theorem channel_append_zeros
    (missing position : Nat) :
    Arguments.channel (arguments ++ List.replicate missing (.int 0)) position =
      Arguments.channel arguments position := by
  unfold Arguments.channel Arguments.value
  by_cases given : position < arguments.length
  · rw [List.getElem?_append_left given]
  · rw [List.getElem?_append_right (Nat.le_of_not_lt given),
      List.getElem?_eq_none (Nat.le_of_not_lt given)]
    cases found : (List.replicate missing (Value.int 0))[position - arguments.length]? with
    | none => rfl
    | some filler =>
        obtain ⟨_, rfl⟩ := List.mem_replicate.mp (List.mem_of_getElem? found)
        rfl

/-- An integral channel can be read. -/
theorem exists_channel
    (integral : ∀ argument ∈ arguments, argument.isIntegral = true)
    (position : Nat) :
    ∃ level, Arguments.channel arguments position = .ok level := by
  unfold Arguments.channel Arguments.value
  cases found : arguments[position]? with
  | none => exact ⟨0, rfl⟩
  | some argument =>
      have whole := integral argument (List.mem_of_getElem? found)
      cases argument with
      | bool truth => exact ⟨_, rfl⟩
      | int number => exact ⟨_, rfl⟩
      | _ => contradiction

/-- Integers and truth values always give a color. -/
theorem exists_channels
    (integral : ∀ argument ∈ arguments, argument.isIntegral = true) :
    ∃ color, Arguments.channels arguments 0 = .ok color := by
  obtain ⟨red, isRed⟩ := exists_channel integral 0
  obtain ⟨green, isGreen⟩ := exists_channel integral 1
  obtain ⟨blue, isBlue⟩ := exists_channel integral 2
  obtain ⟨white, isWhite⟩ := exists_channel integral 3
  refine ⟨⟨red, green, blue, white⟩, ?_⟩
  unfold Arguments.channels
  rw [isRed, isGreen, isBlue, isWhite]
  rfl

/-- Channels that are left out are zero. -/
theorem channels_append_zeros (missing : Nat) :
    Arguments.channels (arguments ++ List.replicate missing (.int 0)) 0 =
      Arguments.channels arguments 0 := by
  unfold Arguments.channels
  simp only [channel_append_zeros]

/-- Two to four values behind the index are channels. -/
theorem pixelArgument_channels
    (index : Value)
    (several : 2 ≤ arguments.length)
    (few : arguments.length ≤ 4) :
    pixelArgument (index :: arguments) = Arguments.channels arguments 0 := by
  have asChannels : Arguments.channels (index :: arguments) 1 = Arguments.channels arguments 0 := by
    unfold Arguments.channels
    simp only [channel_cons]
  unfold pixelArgument
  rw [List.length_cons, ← asChannels]
  obtain two | three | four :
      arguments.length = 2 ∨ arguments.length = 3 ∨ arguments.length = 4 := by
    omega
  · rw [two]; rfl
  · rw [three]; rfl
  · rw [four]; rfl

/-- One value behind the index is a packed color. -/
theorem pixelArgument_packed
    (index : Value)
    (given : Int64) :
    pixelArgument [index, .int given] = .ok (Color.ofPacked given.toUInt64.toUInt32) :=
  rfl

/-- A packed color is read back as the color. -/
theorem pixelArgument_colorValue
    (index : Value)
    (color : Color) :
    pixelArgument [index, colorValue color.packed] = .ok color := by
  unfold colorValue
  rw [pixelArgument_packed, toUInt32_ofNat_toNat, Color.ofPacked_packed]

end Arguments

/-- Store a color in the pixel at an index. -/
def storeColor
    (id : Nat)
    (index : Value)
    (color : Color) :
    Native Value := do
  let position ← ofType index.toInt64
  changeStrip id fun strip => strip.setPixel position.toInt color
  return .undefined

/-- A pixel is set to the color that the arguments give. -/
theorem callMethod_setPixelColor
    {index : Value}
    {arguments : List Value}
    {color : Color}
    (found : pixelArgument (index :: arguments) = .ok color)
    (id : Nat) :
    callMethod (.strip id) "setPixelColor" (index :: arguments) = storeColor id index color := by
  have isIndex : Arguments.int (index :: arguments) 0 = index.toInt64 := rfl
  unfold callMethod callStrip storeColor
  dsimp only
  rw [found, isIndex]
  rfl

/-- A color is packed from the channels that the arguments give. -/
theorem callMethod_color
    {arguments : List Value}
    {color : Color}
    (found : Arguments.channels arguments 0 = .ok color)
    (id : Nat) :
    callMethod (.strip id) "Color" arguments =
      (do
        checkLive
        return colorValue color.packed) := by
  unfold callMethod callStrip colorHelper?
  dsimp only
  rw [found]
  rfl

/-- The world with another strip in the place of a registered one. -/
def withStrip
    (world : World)
    (id : Nat)
    (strip : Strip) :
    World :=
  { world with
    board := { world.board with strips := world.board.strips.setIfInBounds id strip } }

section Strips

variable {world : World} {id : Nat} {strip : Strip} {index : Value} {position : Int64}

/-- A strip that is changed is found changed. -/
theorem getElem?_withStrip
    (found : world.board.strips[id]? = some strip)
    (changed : Strip) :
    (withStrip world id changed).board.strips[id]? = some changed := by
  have known : id < world.board.strips.size := (Array.getElem?_eq_some_iff.mp found).1
  exact Array.getElem?_setIfInBounds_self_of_lt known

theorem runIn_changeStrip_live
    (live : world.host.live = true)
    (found : world.board.strips[id]? = some strip)
    (change : Strip → Except StripError Strip) :
    runIn world (changeStrip id change) =
      match change strip with
      | .ok changed => (.ok (), withStrip world id changed)
      | .error error => (.error (.strip error), world) := by
  have isStrip := runIn_strip_live live id
  rw [found] at isStrip
  rw [changeStrip, runIn_bind, isStrip]
  dsimp only
  rw [runIn_bind, runIn_ofStrip]
  cases change strip <;> rfl

/-- A strip is changed only in the current run, and only if it is registered. -/
theorem of_runIn_changeStrip
    {change : Strip → Except StripError Strip}
    {after : World}
    (changed : runIn world (changeStrip id change) = (.ok (), after)) :
    ∃ strip,
      world.host.live = true ∧ world.board.strips[id]? = some strip := by
  cases live : world.host.live with
  | false =>
      rw [changeStrip, runIn_bind, runIn_strip_stale live] at changed
      cases changed
  | true =>
      cases found : world.board.strips[id]? with
      | none =>
          have missing := runIn_strip_live live id
          rw [found] at missing
          rw [changeStrip, runIn_bind, missing] at changed
          cases changed
      | some strip => exact ⟨strip, rfl, rfl⟩

/-- A color is stored at an index that is an integer. -/
theorem runIn_storeColor
    (isIndex : index.toInt64 = .ok position)
    (world : World)
    (id : Nat)
    (color : Color) :
    runIn world (storeColor id index color) =
      match runIn world (changeStrip id fun strip => strip.setPixel position.toInt color) with
      | (.ok _, after) => (.ok .undefined, after)
      | (.error fault, after) => (.error fault, after) := by
  have known : ofType (.ok position) = (pure position : Native Int64) := rfl
  unfold storeColor
  rw [isIndex, known, pure_bind, runIn_bind]
  rcases runIn world (changeStrip id fun strip => strip.setPixel position.toInt color) with
    ⟨_ | _, after⟩ <;> rfl

/-- To store a color in a pixel that the strip has changes that pixel. -/
theorem runIn_storeColor_known
    {slot : Nat}
    (isIndex : index.toInt64 = .ok position)
    (live : world.host.live = true)
    (found : world.board.strips[id]? = some strip)
    (known : strip.slot position.toInt = .ok slot)
    (color : Color) :
    runIn world (storeColor id index color) =
      (.ok .undefined,
        withStrip world id { strip with pixels := strip.pixels.setIfInBounds slot color }) := by
  rw [runIn_storeColor isIndex, runIn_changeStrip_live live found, Strip.setPixel, known]
  rfl

/-- A color is stored only in a pixel of a registered strip. -/
theorem of_runIn_storeColor
    {color : Color}
    {value : Value}
    {after : World}
    (stored : runIn world (storeColor id index color) = (.ok value, after)) :
    ∃ position strip slot,
      index.toInt64 = .ok position ∧
        world.host.live = true ∧
        world.board.strips[id]? = some strip ∧
        strip.slot position.toInt = .ok slot := by
  cases isIndex : index.toInt64 with
  | error fault =>
      unfold storeColor at stored
      rw [isIndex] at stored
      cases stored
  | ok position =>
      rw [runIn_storeColor isIndex] at stored
      split at stored
      · next changed =>
          obtain ⟨strip, live, found⟩ := of_runIn_changeStrip changed
          rw [runIn_changeStrip_live live found, Strip.setPixel] at changed
          cases known : strip.slot position.toInt with
          | error error =>
              rw [known] at changed
              cases changed
          | ok slot => exact ⟨position, strip, slot, rfl, live, found, known⟩
      · cases stored

/-- Another color in a pixel does not change which pixels a strip has. -/
theorem slot_withPixel
    (strip : Strip)
    (slot : Nat)
    (color : Color)
    (index : Int) :
    Strip.slot { strip with pixels := strip.pixels.setIfInBounds slot color } index =
      strip.slot index := by
  unfold Strip.slot Strip.size
  rw [Array.size_setIfInBounds]

/-- A pixel that is set is read back. -/
theorem getD_withPixel
    {slot : Nat}
    {index : Int}
    (known : strip.slot index = .ok slot)
    (color : Color) :
    (strip.pixels.setIfInBounds slot color).getD slot Color.black = color := by
  have within := (Strip.slot_eq_ok_iff.mp known).2
  rw [Array.getD_eq_getD_getElem?, Array.getElem?_setIfInBounds_self_of_lt within]
  rfl

theorem runIn_getPixelColor
    {slot : Nat}
    (isIndex : index.toInt64 = .ok position)
    (live : world.host.live = true)
    (found : world.board.strips[id]? = some strip)
    (known : strip.slot position.toInt = .ok slot) :
    runIn world (callMethod (.strip id) "getPixelColor" [index]) =
      (.ok (colorValue (strip.pixels.getD slot Color.black).packed), world) := by
  have reads :
      callMethod (.strip id) "getPixelColor" [index] =
        (do
          let position ← ofType index.toInt64
          let found ← Native.strip id
          return colorValue (← ofStrip (found.pixel position.toInt))) :=
    rfl
  have given : ofType (.ok position) = (pure position : Native Int64) := rfl
  have isStrip := runIn_strip_live live id
  rw [found] at isStrip
  rw [reads, isIndex, given, pure_bind, runIn_bind, isStrip]
  dsimp only
  rw [Strip.pixel, known]
  rfl

/-- The color that has been stored in a pixel is read back. -/
theorem runIn_getPixelColor_stored
    {slot : Nat}
    (isIndex : index.toInt64 = .ok position)
    (live : world.host.live = true)
    (found : world.board.strips[id]? = some strip)
    (known : strip.slot position.toInt = .ok slot)
    (color : Color) :
    let stored :=
      withStrip world id { strip with pixels := strip.pixels.setIfInBounds slot color }
    runIn stored (callMethod (.strip id) "getPixelColor" [index]) =
      (.ok (colorValue color.packed), stored) := by
  intro stored
  have stillKnown := (slot_withPixel strip slot color position.toInt).trans known
  have stillLive : stored.host.live = true := live
  rw [runIn_getPixelColor isIndex stillLive (getElem?_withStrip found _) stillKnown,
    getD_withPixel known]

end Strips

section Shapes

variable (world : World) (id : Nat) (index : Value)

/-- A stale run finds out that it is superseded before anything else that can be wrong. -/
theorem runIn_checkLive_storeColor
    (sound : world.host.live = true ∨ index.isIntegral = true)
    (color : Color) :
    runIn world (checkLive >>= fun _ => storeColor id index color) =
      runIn world (storeColor id index color) := by
  rw [runIn_bind, runIn_checkLive]
  cases live : world.host.live with
  | true => rfl
  | false =>
      rw [live] at sound
      obtain ⟨position, isIndex⟩ := Value.exists_toInt64_of_isIntegral (sound.resolve_left nofun)
      rw [runIn_storeColor isIndex, changeStrip, runIn_bind, runIn_strip_stale live]
      rfl

/-- A pixel set from channels is set as from their packed color. -/
theorem runIn_packed
    {arguments : List Value}
    (sound : world.host.live = true ∨ index.isIntegral = true)
    (several : 2 ≤ arguments.length)
    (few : arguments.length ≤ 4)
    (integral : ∀ argument ∈ arguments, argument.isIntegral = true) :
    runIn world
        (do
          let color ← callMethod (.strip id) "Color" arguments
          callMethod (.strip id) "setPixelColor" [index, color]) =
      runIn world (callMethod (.strip id) "setPixelColor" (index :: arguments)) := by
  obtain ⟨color, isColor⟩ := exists_channels integral
  have asChannels := (pixelArgument_channels index several few).trans isColor
  rw [callMethod_setPixelColor asChannels, callMethod_color isColor, bind_assoc]
  simp only [pure_bind]
  rw [callMethod_setPixelColor (pixelArgument_colorValue index color)]
  exact runIn_checkLive_storeColor world id index sound color

end Shapes

/--
A pixel that is set from two to four channels is set as from the packed color that the
strip makes of them, and as if the missing channels were zero.  A pixel that has been set
to an integer is read back as the integer modulo `2 ^ 32`, and a pixel that is set to what
is read from another one gets all four of its channels.
-/
theorem color_shapes_agree
    (world : World)
    (id : Nat)
    (index : Value) :
    (∀ channels : List Value,
      2 ≤ channels.length →
      channels.length ≤ 4 →
      (∀ channel ∈ channels, channel.isIntegral = true) →
      world.host.live = true ∨ index.isIntegral = true →
      runIn world (callMethod (.strip id) "setPixelColor" (index :: channels)) =
          runIn world
            (do
              let color ← callMethod (.strip id) "Color" channels
              callMethod (.strip id) "setPixelColor" [index, color]) ∧
        runIn world (callMethod (.strip id) "setPixelColor" (index :: channels)) =
          runIn world
            (callMethod (.strip id) "setPixelColor"
              (index :: (channels ++ List.replicate (4 - channels.length) (.int 0))))) ∧
      (∀ given value after,
        runIn world (callMethod (.strip id) "setPixelColor" [index, .int given]) =
          (.ok value, after) →
        ∃ number,
          runIn after (callMethod (.strip id) "getPixelColor" [index]) =
              (.ok (.int number), after) ∧
            number.toInt = given.toInt % 4294967296) ∧
      ∀ strip other target source color,
        world.host.live = true →
        world.board.strips[id]? = some strip →
        index.toInt64 = .ok target →
        0 ≤ target.toInt →
        target.toInt < strip.size →
        other.toInt64 = .ok source →
        0 ≤ source.toInt →
        strip.pixels[source.toInt.toNat]? = some color →
        runIn world
            (do
              let packed ← callMethod (.strip id) "getPixelColor" [other]
              callMethod (.strip id) "setPixelColor" [index, packed]) =
          (.ok .undefined,
            withStrip world id
              { strip with
                pixels := strip.pixels.setIfInBounds target.toInt.toNat color }) := by
  refine ⟨?_, ?_, ?_⟩
  · intro channels several few integral sound
    refine ⟨(runIn_packed world id index sound several few integral).symm, ?_⟩
    obtain ⟨color, isColor⟩ := exists_channels integral
    have complete :
        (channels ++ List.replicate (4 - channels.length) (Value.int 0)).length = 4 := by
      rw [List.length_append, List.length_replicate]
      omega
    have filled :
        pixelArgument
            (index :: (channels ++ List.replicate (4 - channels.length) (Value.int 0))) =
          .ok color := by
      rw [pixelArgument_channels index (by omega) (by omega), channels_append_zeros, isColor]
    rw [callMethod_setPixelColor ((pixelArgument_channels index several few).trans isColor),
      callMethod_setPixelColor filled]
  · intro given value after stored
    rw [callMethod_setPixelColor (pixelArgument_packed index given)] at stored
    obtain ⟨position, strip, slot, isIndex, live, found, known⟩ := of_runIn_storeColor stored
    rw [runIn_storeColor_known isIndex live found known] at stored
    obtain ⟨_, rfl⟩ := Prod.mk.inj stored
    rw [runIn_getPixelColor_stored isIndex live found known, Color.packed_ofPacked]
    exact ⟨_, rfl, toInt_colorValue given⟩
  · intro strip other target source color live found isTarget low high isSource least inside
    obtain ⟨within, isColor⟩ := Array.getElem?_eq_some_iff.mp inside
    have targetKnown : strip.slot target.toInt = .ok target.toInt.toNat :=
      Strip.slot_eq_ok_iff.mpr ⟨(Int.toNat_of_nonneg low).symm, by omega⟩
    have sourceKnown : strip.slot source.toInt = .ok source.toInt.toNat :=
      Strip.slot_eq_ok_iff.mpr ⟨(Int.toNat_of_nonneg least).symm, within⟩
    have read := runIn_getPixelColor isSource live found sourceKnown
    rw [Array.getD_eq_getD_getElem?, inside] at read
    rw [runIn_bind, read]
    dsimp only
    rw [Option.getD_some, callMethod_setPixelColor (pixelArgument_colorValue index color),
      runIn_storeColor_known isTarget live found targetKnown]

/-- A pixel gets two channels, then all bits of a negative number, and is copied to another. -/
theorem color_shapes_agree_on_two_pixels :
    ∃ (world after copied : World) (number : Int64),
      runIn world (callMethod (.strip 0) "setPixelColor" [.int 1, .int 300, .bool true]) =
          runIn world
            (do
              let color ← callMethod (.strip 0) "Color" [.int 300, .bool true]
              callMethod (.strip 0) "setPixelColor" [.int 1, color]) ∧
        runIn world (callMethod (.strip 0) "setPixelColor" [.int 1, .int (-1)]) =
          (.ok .undefined, after) ∧
        runIn after (callMethod (.strip 0) "getPixelColor" [.int 1]) =
          (.ok (.int number), after) ∧
        number.toInt = 4294967295 ∧
        runIn after
            (do
              let packed ← callMethod (.strip 0) "getPixelColor" [.int 1]
              callMethod (.strip 0) "setPixelColor" [.int 0, packed]) =
          (.ok .undefined, copied) ∧
        (copied.board.strips[0]?.map Strip.pixels) =
          some #[⟨255, 255, 255, 255⟩, ⟨255, 255, 255, 255⟩] := by
  let strip : Strip := ⟨3, .grb, 255, #[Color.black, Color.black]⟩
  let white : Strip := ⟨3, .grb, 255, #[Color.black, ⟨255, 255, 255, 255⟩]⟩
  let world : World :=
    ⟨.empty, { Board.create 1 .grb with strips := #[strip] }, ⟨true, .empty, #[], #[]⟩⟩
  have stored :
      runIn world (callMethod (.strip 0) "setPixelColor" [.int 1, .int (-1)]) =
        (.ok .undefined, withStrip world 0 white) := by
    rfl
  have integral : ∀ channel ∈ [Value.int 300, .bool true], channel.isIntegral = true := by decide
  obtain ⟨shapes, readBack, _⟩ := color_shapes_agree world 0 (.int 1)
  obtain ⟨_, _, copies⟩ := color_shapes_agree (withStrip world 0 white) 0 (.int 0)
  obtain ⟨number, read, same⟩ := readBack (-1) _ _ stored
  have copied :=
    copies white (.int 1) 0 1 ⟨255, 255, 255, 255⟩ rfl rfl rfl (by decide) (by decide) rfl
      (by decide) rfl
  exact ⟨world, _, _, number, (shapes _ (by decide) (by decide) integral (.inl rfl)).1, stored,
    read, same, copied, rfl⟩

end Native

end LedSketch
