import LedSketch.Number.Binary64
import LedSketch.Number.DoubleDouble

namespace LedSketch.QuarterTurn

/-!
# Angles in quarter turns

An angle is reduced to its distance from the nearest multiple of a quarter turn of
the circle.  Multiples of a quarter turn are taken off a moderate angle in doubles.
A large angle is multiplied with the digits of `2 / π` in base `2 ^ 24`, column by
column, and the fraction left over is multiplied with those of a quarter turn.
-/

/-- An angle as a number of quarter turns and an angle of at most an eighth turn. -/
structure Reduced where
  quarters : Nat
  rest : DoubleDouble

/-- The upper half of the bits of a double that is not negative. -/
def upperBits (size : Float) : Nat := (size.toBits >>> 32).toNat

/-- What a step leaves of a rest. -/
def remaining (rest step : Float) : DoubleDouble :=
  let head := rest - step
  ⟨head, (rest - head) - step⟩

/-- A refined distance: the next digits of the quarter turns are taken off. -/
def refine
    (quarters rest next after : Float) :
    Float × Float :=
  let step := quarters * next
  let refined := rest - step
  (refined, quarters * after - ((rest - refined) - step))

/-- The first digits of a quarter turn: few enough for an exact product. -/
def quarterFirst : Float := 1.57079632673412561417e+00

/-- The digits of a quarter turn after the first ones. -/
def quarterAfterFirst : Float := 6.07710050650619224932e-11

/-- Take quarter turns off an angle, once. -/
def reduceOnce (quarters size : Float) : DoubleDouble :=
  remaining (size - quarters * quarterFirst) (quarters * quarterAfterFirst)

/-- Take quarter turns off an angle, in as many steps as its digits need. -/
def reduceFully (quarters size : Float) : DoubleDouble :=
  let first := size - quarters * quarterFirst
  let near := remaining first (quarters * quarterAfterFirst)
  if Binary64.exponentField size ≤ Binary64.exponentField near.head + 16 then
    near
  else
    let (second, step) :=
      refine quarters first 6.07710050630396597660e-11 2.02226624879595063154e-21
    let nearer := remaining second step
    if Binary64.exponentField size ≤ Binary64.exponentField nearer.head + 49 then
      nearer
    else
      let (third, step) :=
        refine quarters second 2.02226624871116645580e-21 8.47842766036889956997e-32
      remaining third step

/-- The whole number nearest to a double of moderate size. -/
def nearestWhole (x : Float) : Float :=
  x + 6755399441055744.0 - 6755399441055744.0

/-- The number of quarter turns next to an angle of moderate size. -/
def nearestQuarters (size : Float) : Float :=
  nearestWhole (size * 6.36619772367581382433e-01)

/-- The quarter turns next to a small angle that is not too close to them. -/
def smallQuarters? (size : Float) : Option Float :=
  let upper := upperBits size
  if upper ≤ 0x400f6a7a then
    if upper % 0x100000 = 0x921fb then
      none
    else
      some (if upper ≤ 0x4002d97c then 1.0 else 2.0)
  else if upper ≤ 0x4015fdbc then
    if upper = 0x4012d97c then none else some 3.0
  else if upper ≤ 0x401c463b then
    if upper = 0x401921fb then none else some 4.0
  else
    none

/-- The digits of `2 / π` after the point, in words of 64 bits. -/
def rateWords : List Nat := [
  0xa2f9836e4e441529, 0xfc2757d1f534ddc0, 0xdb6295993c439041, 0xfe5163abdebbc561,
  0xb7246e3a424dd2e0, 0x06492eea09d1921c, 0xfe1deb1cb129a73e, 0xe88235f52ebb4484,
  0xe99c7026b45f7e41, 0x3991d639835339f4, 0x9c845f8bbdf9283b, 0x1ff897ffde05980f,
  0xef2f118b5a0a6d1f, 0x6d367ecf27cb09b7, 0x4f463f669e5fea2d, 0x7527bac7ebe5f17b,
  0x3d0739f78a5292ea, 0x6bfb5fb11f8d5d08, 0x56033046fc7b6bab, 0xf0cfbc209af4361d,
  0xa9e391615ee61b08, 0x6599855f14a06840, 0x8dffd8804d732731, 0x06061556ca73a8c9,
  0x60e27bc08c6b47c4]

/-- The quotient `2 / π` times `2 ^ 1600`, rounded down. -/
def rateBits : Nat :=
  rateWords.foldl (fun bits word => bits * Nat.pow 2 64 + word) 0

/-- The first digits of `2 / π` in base `2 ^ 24`, as one number. -/
def rate (digits : Nat) : Nat :=
  rateBits / Nat.pow 2 (1600 - 24 * digits)

/--
A large angle in quarter turns, counted in units of the column `last`: the three
digits of the significand each meet the digits of `2 / π` down to that column.
-/
def turns (significand last : Nat) : Nat :=
  significand / Nat.pow 2 29 * rate (last + 1) +
    significand / Nat.pow 2 5 % Nat.pow 2 24 * rate last +
    significand % Nat.pow 2 5 * Nat.pow 2 19 * rate (last - 1)

/-- How far an angle is from a whole number of quarter turns. -/
structure Distance where
  quarters : Nat
  /-- Whether the angle is smaller than that number of quarter turns. -/
  below : Bool
  /-- The distance in units of `2 ^ exponent` quarter turns. -/
  units : Nat
  exponent : Int
  deriving Repr, DecidableEq

/-- The distance of a large angle, computed down to a column. -/
def distanceAt
    (angle : Binary64.Parts)
    (last : Nat) :
    Distance :=
  let exponent : Int := angle.exponent + 5 - 24 * last
  let whole := Nat.pow 2 (-exponent).toNat
  let turns := turns angle.significand last
  let quarters := Rounding.nearest .up turns whole
  let below : Bool := turns < quarters * whole
  ⟨quarters, below, if below then quarters * whole - turns else turns - quarters * whole,
    exponent⟩

/-- How many digits in base `2 ^ 24` a number has. -/
def digitCount (number : Nat) : Nat := number.log2 / 24 + 1

/-- The digit in base `2 ^ 24` at a place, counted from the last one. -/
def digit (number place : Nat) : Nat :=
  number / Nat.pow 2 (24 * place) % Nat.pow 2 24

/-- The distance to five digits: as many columns are added as leading digits cancel. -/
def distanceFrom
    (angle : Binary64.Parts) :
    Nat → Nat → Distance
  | 0, last => distanceAt angle last
  | rounds + 1, last =>
      let distance := distanceAt angle last
      let missing := 5 - digitCount distance.units
      if missing = 0 then
        distance
      else
        distanceFrom angle rounds (last + missing)

/--
The distance of a large angle.  The first five columns that are taken begin below
eight quarter turns, whose multiples are whole turns of the circle.
-/
def distance (angle : Binary64.Parts) : Distance :=
  distanceFrom angle 8 ((angle.exponent + 26).toNat / 24 + 4)

/-- The digits of a quarter turn in base `2 ^ 24`; the first one counts `2 ^ -23`. -/
def quarterDigits : List Nat := [0xc90fda, 0xa22168, 0xc234c4, 0xc6628b, 0x80dc1c]

/-- The column at a place of the product of a number with a quarter turn. -/
def productColumn (number place : Nat) : Nat :=
  quarterDigits.zipIdx.foldl
    (fun sum (quarterDigit, offset) => sum + quarterDigit * digit number (place + offset)) 0

/-- A distance as an angle, in columns, the leading one first. -/
def angleColumns (distance : Distance) : List Float :=
  (List.range (digitCount distance.units)).reverse.map fun place =>
    Binary64.nearestScaled false (productColumn distance.units place)
      (distance.exponent + 24 * place - 23)

/-- The sum of columns, taken from the last one on, and what it leaves out. -/
def sumColumns : List Float → DoubleDouble
  | [] => ⟨0.0, 0.0⟩
  | leading :: rest =>
      let head := leading + rest.foldr (· + ·) 0.0
      ⟨head, rest.foldl (· + ·) (leading - head)⟩

/-- Take the nearest number of quarter turns off a large angle, by columns of digits. -/
def reduceByColumns (size : Float) : Reduced :=
  match Binary64.shape size with
  | .finite angle =>
      let distance := distance angle
      let rest := sumColumns (angleColumns distance)
      ⟨distance.quarters, if distance.below then ⟨-rest.head, -rest.tail⟩ else rest⟩
  | _ => ⟨0, ⟨size, 0.0⟩⟩

/-- Take the nearest number of quarter turns off an angle above an eighth turn. -/
def reduce (size : Float) : Reduced :=
  match smallQuarters? size with
  | some quarters => ⟨quarters.toUInt64.toNat, reduceOnce quarters size⟩
  | none =>
      if upperBits size < 0x413921fb then
        let quarters := nearestQuarters size
        ⟨quarters.toUInt64.toNat, reduceFully quarters size⟩
      else
        reduceByColumns size

end LedSketch.QuarterTurn
