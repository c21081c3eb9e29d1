import LedSketch.Color.Packed

namespace LedSketch.Gamma

/-!
# Gamma correction

A table of 256 corrected levels for the exponent 2.6.
-/

/-- The corrected level of every channel level: `255 * (level / 255) ^ 2.6`, rounded. -/
def table : Array UInt8 := #[
  0, 0, 0, 0, 0, 0, 0, 0, 0, 0, 0, 0, 0, 0, 0, 0,
  0, 0, 0, 0, 0, 0, 0, 0, 1, 1, 1, 1, 1, 1, 1, 1,
  1, 1, 1, 1, 2, 2, 2, 2, 2, 2, 2, 2, 3, 3, 3, 3,
  3, 3, 4, 4, 4, 4, 5, 5, 5, 5, 5, 6, 6, 6, 6, 7,
  7, 7, 8, 8, 8, 9, 9, 9, 10, 10, 10, 11, 11, 11, 12, 12,
  13, 13, 13, 14, 14, 15, 15, 16, 16, 17, 17, 18, 18, 19, 19, 20,
  20, 21, 21, 22, 22, 23, 24, 24, 25, 25, 26, 27, 27, 28, 29, 29,
  30, 31, 31, 32, 33, 34, 34, 35, 36, 37, 38, 38, 39, 40, 41, 42,
  42, 43, 44, 45, 46, 47, 48, 49, 50, 51, 52, 53, 54, 55, 56, 57,
  58, 59, 60, 61, 62, 63, 64, 65, 66, 68, 69, 70, 71, 72, 73, 75,
  76, 77, 78, 80, 81, 82, 84, 85, 86, 88, 89, 90, 92, 93, 94, 96,
  97, 99, 100, 102, 103, 105, 106, 108, 109, 111, 112, 114, 115, 117, 119, 120,
  122, 124, 125, 127, 129, 130, 132, 134, 136, 137, 139, 141, 143, 145, 146, 148,
  150, 152, 154, 156, 158, 160, 162, 164, 166, 168, 170, 172, 174, 176, 178, 180,
  182, 184, 186, 188, 191, 193, 195, 197, 199, 202, 204, 206, 209, 211, 213, 215,
  218, 220, 223, 225, 227, 230, 232, 235, 237, 240, 242, 245, 247, 250, 252, 255]

set_option maxRecDepth 2000 in
/-- Every level has an entry. -/
theorem table_size : table.size = 256 := by
  decide

/-- The corrected level of a channel. -/
def level (channel : UInt8) : UInt8 :=
  table.getD channel.toNat 0

/-- The corrected color, white included. -/
def packed (word : UInt32) : UInt32 :=
  let color := Color.ofPacked word
  (Color.mk (level color.red) (level color.green) (level color.blue)
    (level color.white)).packed

/-- A color helper was given a number that is no channel level. -/
inductive ColorError where
  | outOfRange (value : Int)
  deriving Repr, DecidableEq

/-- The message of a color error. -/
def ColorError.message : ColorError → String
  | .outOfRange value => "gamma input " ++ toString value ++ " is outside 0..=255"

/-- The corrected level of an integer, refused outside the range of a channel. -/
def level? (value : Int) : Except ColorError UInt8 :=
  if 0 ≤ value ∧ value ≤ 255 then
    .ok (level (UInt8.ofNat value.toNat))
  else
    .error (.outOfRange value)

end LedSketch.Gamma
