import LedSketch.Color.Packed

namespace LedSketch.Hue

/-!
# Color wheels

Two ways from a position on a circle to a color: the 16-bit hue with saturation
and value, and the 8-bit wheel of three bands.
-/

/-- The width of one of the six regions of the 16-bit hue circle. -/
def regionWidth : UInt32 := 10923

/--
The color of a hue, which wraps at 65536, with a saturation and a value.
Channels are computed as floats and cut off toward zero.
-/
def toPacked
    (hue : UInt32)
    (saturation value : UInt8) :
    UInt32 :=
  let hue := hue % 65536
  let part := (hue % regionWidth).toFloat / regionWidth.toFloat
  let full := value.toFloat
  let strength := saturation.toFloat / 255.0
  let low := full * (1.0 - strength)
  let falling := full * (1.0 - part * strength)
  let rising := full * (1.0 - (1.0 - part) * strength)
  let (red, green, blue) :=
    match (hue / regionWidth).toNat with
    | 0 => (full, rising, low)
    | 1 => (falling, full, low)
    | 2 => (low, full, rising)
    | 3 => (low, falling, full)
    | 4 => (rising, low, full)
    | _ => (full, low, falling)
  (Color.rgb red.toUInt8 green.toUInt8 blue.toUInt8).packed

/-- The color at a position of the wheel: red at both ends, then blue, then green. -/
def wheel (position : UInt8) : UInt32 :=
  let mirrored := 255 - position
  if mirrored < 85 then
    (Color.rgb (255 - mirrored * 3) 0 (mirrored * 3)).packed
  else if mirrored < 170 then
    let step := mirrored - 85
    (Color.rgb 0 (step * 3) (255 - step * 3)).packed
  else
    let step := mirrored - 170
    (Color.rgb (step * 3) (255 - step * 3) 0).packed

end LedSketch.Hue
