namespace LedSketch.Level

/-!
# Channel levels

A channel is a byte.  Script numbers are clamped into it, and brightness scales
it when a frame is shown.
-/

/-- Scale a channel by a brightness: `channel * brightness / 255`, rounded down. -/
def scale (channel brightness : UInt8) : UInt8 :=
  UInt8.ofNat (channel.toNat * brightness.toNat / 255)

/-- The byte nearest to an integer. -/
def ofInt (value : Int) : UInt8 :=
  UInt8.ofNat (min value.toNat 255)

/-- The byte nearest to a float cut off toward zero; not a number gives zero. -/
def ofFloat (value : Float) : UInt8 :=
  value.toUInt8

/-- Full brightness leaves a channel as it is. -/
theorem scale_full (channel : UInt8) : scale channel 255 = channel := by
  have full : (255 : UInt8).toNat = 255 := rfl
  rw [scale, full, Nat.mul_div_cancel _ (by decide)]
  simp

/-- A scaled channel never exceeds the channel. -/
theorem scale_le
    (channel brightness : UInt8) :
    (scale channel brightness).toNat ≤ channel.toNat := by
  have channelBound := channel.toNat_lt
  have brightnessBound := brightness.toNat_lt
  have product : channel.toNat * brightness.toNat ≤ channel.toNat * 255 :=
    Nat.mul_le_mul_left _ (by omega)
  have quotient : channel.toNat * brightness.toNat / 255 ≤ channel.toNat := by
    omega
  rw [scale, UInt8.toNat_ofNat']
  exact Nat.le_trans (Nat.mod_le _ _) quotient

end LedSketch.Level
