namespace LedSketch

/-!
# Colors

A pixel has a red, a green, a blue and a white channel.  The packed form is one
32-bit word with white in the highest byte, then red, green and blue.
-/

/-- A pixel of four channels. -/
structure Color where
  red : UInt8
  green : UInt8
  blue : UInt8
  white : UInt8
  deriving Repr, DecidableEq

namespace Color

/-- A pixel with every channel off. -/
def black : Color := ⟨0, 0, 0, 0⟩

/-- A pixel without white. -/
def rgb (red green blue : UInt8) : Color := ⟨red, green, blue, 0⟩

/-- The four channels in one word: white, red, green, blue from the top. -/
def packed (color : Color) : UInt32 :=
  UInt32.ofNat
    (color.white.toNat * 0x1000000 + color.red.toNat * 0x10000 +
      color.green.toNat * 0x100 + color.blue.toNat)

/-- The channels of a packed word. -/
def ofPacked (word : UInt32) : Color where
  white := UInt8.ofNat (word.toNat / 0x1000000)
  red := UInt8.ofNat (word.toNat / 0x10000)
  green := UInt8.ofNat (word.toNat / 0x100)
  blue := UInt8.ofNat word.toNat

/-- The packed word as a number. -/
theorem toNat_packed (color : Color) :
    color.packed.toNat =
      color.white.toNat * 0x1000000 + color.red.toNat * 0x10000 +
        color.green.toNat * 0x100 + color.blue.toNat := by
  have redBound := color.red.toNat_lt
  have greenBound := color.green.toNat_lt
  have blueBound := color.blue.toNat_lt
  have whiteBound := color.white.toNat_lt
  rw [packed, UInt32.toNat_ofNat']
  omega

/-- Unpacking undoes packing. -/
@[simp] theorem ofPacked_packed (color : Color) : ofPacked color.packed = color := by
  have redBound := color.red.toNat_lt
  have greenBound := color.green.toNat_lt
  have blueBound := color.blue.toNat_lt
  have whiteBound := color.white.toNat_lt
  have word := toNat_packed color
  rcases color with ⟨red, green, blue, white⟩
  simp only [ofPacked, Color.mk.injEq, ← UInt8.toNat_inj, UInt8.toNat_ofNat']
  simp only at *
  omega

/-- Packing undoes unpacking. -/
@[simp] theorem packed_ofPacked (word : UInt32) : (ofPacked word).packed = word := by
  have wordBound := word.toNat_lt
  rw [← UInt32.toNat_inj, toNat_packed]
  simp only [ofPacked, UInt8.toNat_ofNat']
  omega

end Color

end LedSketch
