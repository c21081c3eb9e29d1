import LedSketch.Number.QuarterTurn

namespace LedSketch.Trigonometry

/-!
# Sine and cosine of doubles

An angle is reduced to quarter turns and a rest of at most an eighth turn, which is
kept as a sum of two doubles.  For the rest, sine and cosine are polynomials.
-/

/-- Coefficients of the sine after its first two terms. -/
def sineLow : List Float := [
  8.33333333332248946124e-03, -1.98412698298579493134e-04, 2.75573137070700676789e-06]

/-- The last coefficients of the sine. -/
def sineHigh : List Float := [-2.50507602534068634195e-08, 1.58969099521155010221e-10]

/-- The first coefficients of the cosine after its first two terms. -/
def cosineLow : List Float := [
  4.16666666666666019037e-02, -1.38888888888741095749e-03, 2.48015872894767294178e-05]

/-- The last coefficients of the cosine. -/
def cosineHigh : List Float := [
  -2.75573143513906633035e-07, 2.08757232129817482790e-09, -1.13596475577881948265e-11]

/-- The terms of the sine after its first two, divided by the fifth power. -/
def sineSeries (square : Float) : Float :=
  polynomial square sineLow + square * (square * square) * polynomial square sineHigh

/-- The coefficient of the cube in the sine. -/
def sineCube : Float := -1.66666666666666324348e-01

/-- The sine of a small double. -/
def smallSine (x : Float) : Float :=
  let square := x * x
  let cube := square * x
  x + cube * (sineCube + square * sineSeries square)

/-- The sine of a small angle. -/
def sineOfRest (angle : DoubleDouble) : Float :=
  let x := angle.head
  let square := x * x
  let cube := square * x
  x -
    ((square * (0.5 * angle.tail - cube * sineSeries square) - angle.tail) -
      cube * sineCube)

/-- The cosine of a small angle. -/
def cosineOfRest (angle : DoubleDouble) : Float :=
  let x := angle.head
  let square := x * x
  let fourth := square * square
  let series :=
    square * polynomial square cosineLow +
      fourth * fourth * polynomial square cosineHigh
  let half := 0.5 * square
  let first := 1.0 - half
  first + (((1.0 - first) - half) + (square * series - x * angle.tail))

/-- The sine of an angle that is not negative. -/
def sineOfSize (size : Float) : Float :=
  let upper := QuarterTurn.upperBits size
  if upper ≤ 0x3fe921fb then
    if upper < 0x3e500000 then size else smallSine size
  else
    let reduced := QuarterTurn.reduce size
    match reduced.quarters % 4 with
    | 0 => sineOfRest reduced.rest
    | 1 => cosineOfRest reduced.rest
    | 2 => -sineOfRest reduced.rest
    | _ => -cosineOfRest reduced.rest

/-- The sine of an angle; the sign of the angle is that of its sine. -/
def sine (x : Float) : Float :=
  if x.isNaN || x.isInf then
    Binary64.notANumber
  else if Binary64.isNegative x then
    -sineOfSize x.abs
  else
    sineOfSize x

/-- The cosine of an angle, whose sign does not matter. -/
def cosine (x : Float) : Float :=
  let size := x.abs
  let upper := QuarterTurn.upperBits size
  if x.isNaN || x.isInf then
    Binary64.notANumber
  else if upper ≤ 0x3fe921fb then
    if upper < 0x3e46a09e then 1.0 else cosineOfRest ⟨size, 0.0⟩
  else
    let reduced := QuarterTurn.reduce size
    match reduced.quarters % 4 with
    | 0 => cosineOfRest reduced.rest
    | 1 => -sineOfRest reduced.rest
    | 2 => -cosineOfRest reduced.rest
    | _ => sineOfRest reduced.rest

end LedSketch.Trigonometry
