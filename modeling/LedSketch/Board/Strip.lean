import LedSketch.Board.ColorOrder
import LedSketch.Color.Level
import LedSketch.Color.Packed
import LedSketch.Text.Quoted

namespace LedSketch

/-!
# Strips

A strip stores one color per pixel.  Brightness is applied when a frame is
shown and never to the stored colors.
-/

/-- The ways a strip refuses a request. -/
inductive StripError where
  | unknownOrder (name : String)
  | orderNotText (found : String)
  | noPixels
  | negativePixelCount (count : Int)
  | negativeFillCount (count : Int)
  | indexOutOfRange (index : Int) (size : Nat)
  deriving Repr, DecidableEq

/-- The message of a strip error. -/
def StripError.message : StripError → String
  | .unknownOrder name =>
      "invalid argument: unknown color order " ++ Text.quoted name
  | .orderNotText found =>
      "invalid argument: color order must be a string, got " ++ found
  | .noPixels => "invalid argument: pixel count must be positive"
  | .negativePixelCount count =>
      "invalid argument: pixel count must be positive, got " ++ toString count
  | .negativeFillCount count =>
      "invalid argument: fill count must not be negative, got " ++ toString count
  | .indexOutOfRange index size =>
      "pixel index " ++ toString index ++ " out of range for strip of " ++
        toString size ++ " pixels"

/-- The color order of a name, or the error that names it. -/
def ColorOrder.ofName (name : String) : Except StripError ColorOrder :=
  match ColorOrder.ofName? name with
  | some order => .ok order
  | none => .error (.unknownOrder name)

/-- The channels of a pixel as they are shown; white is not. -/
structure ShownColor where
  red : UInt8
  green : UInt8
  blue : UInt8
  deriving Repr, DecidableEq

/-- One strip of pixels. -/
structure Strip where
  pin : Int64
  order : ColorOrder
  brightness : UInt8
  pixels : Array Color
  deriving Repr, DecidableEq

namespace Strip

/-- A strip of black pixels at full brightness; it needs at least one pixel. -/
def create
    (count : Nat)
    (pin : Int64)
    (order : ColorOrder) :
    Except StripError Strip :=
  if count = 0 then
    .error .noPixels
  else
    .ok
      { pin
        order
        brightness := 255
        pixels := Array.replicate count Color.black }

/-- The number of pixels. -/
def size (strip : Strip) : Nat := strip.pixels.size

/-- The position of a pixel, if the strip has it. -/
def slot
    (strip : Strip)
    (index : Int) :
    Except StripError Nat :=
  if 0 ≤ index ∧ index < strip.size then
    .ok index.toNat
  else
    .error (.indexOutOfRange index strip.size)

/-- Store a color in one pixel. -/
def setPixel
    (strip : Strip)
    (index : Int)
    (color : Color) :
    Except StripError Strip := do
  let position ← strip.slot index
  return { strip with pixels := strip.pixels.setIfInBounds position color }

/-- The packed color stored in one pixel. -/
def pixel
    (strip : Strip)
    (index : Int) :
    Except StripError UInt32 := do
  let position ← strip.slot index
  return (strip.pixels.getD position Color.black).packed

/-- Store a color in the pixels from `start` up to but not including `stop`. -/
def paint
    (strip : Strip)
    (start stop : Nat)
    (color : Color) :
    Strip :=
  { strip with
    pixels := strip.pixels.mapIdx fun position old =>
      if start ≤ position ∧ position < stop then color else old }

/-- The largest index a message can show. -/
def largestIndex : Int := Int64.maxValue.toInt

/--
Fill `count` pixels from `first` on with a packed color; a count of zero fills
to the end.  The whole range is checked before anything is stored.
-/
def fill
    (strip : Strip)
    (word : UInt32)
    (first count : Int) :
    Except StripError Strip :=
  if first < 0 then
    .error (.indexOutOfRange first strip.size)
  else if count < 0 then
    .error (.negativeFillCount count)
  else
    let start := first.toNat
    let length := if count = 0 then strip.size - start else count.toNat
    if length = 0 then
      .ok strip
    else if strip.size < start + length then
      .error
        (.indexOutOfRange (min ((start + length : Nat) - 1 : Int) largestIndex)
          strip.size)
    else
      .ok (strip.paint start (start + length) (Color.ofPacked word))

/-- Switch every pixel off. -/
def clear (strip : Strip) : Strip :=
  { strip with pixels := strip.pixels.map fun _ => Color.black }

/-- Set the brightness that frames are shown with. -/
def setBrightness
    (strip : Strip)
    (brightness : UInt8) :
    Strip :=
  { strip with brightness }

/-- The colors shown for the stored pixels at the current brightness. -/
def frame (strip : Strip) : Array ShownColor :=
  strip.pixels.map fun color =>
    { red := Level.scale color.red strip.brightness
      green := Level.scale color.green strip.brightness
      blue := Level.scale color.blue strip.brightness }

@[simp] theorem size_paint
    (strip : Strip)
    (start stop : Nat)
    (color : Color) :
    (strip.paint start stop color).size = strip.size := by
  simp [paint, size]

@[simp] theorem size_clear (strip : Strip) : strip.clear.size = strip.size := by
  simp [clear, size]

@[simp] theorem size_setBrightness
    (strip : Strip)
    (brightness : UInt8) :
    (strip.setBrightness brightness).size = strip.size := rfl

@[simp] theorem size_frame (strip : Strip) : strip.frame.size = strip.size := by
  simp [frame, size]

end Strip

end LedSketch
