import LedSketch.Number.Rounding

namespace LedSketch.Binary64

/-!
# Doubles as exact fractions

A finite double is a sign and a natural number times a power of two.  Printing,
reading and the floating remainder work on that form, so that they are exact
and round at most once.
-/

/-- A finite double: `significand * 2 ^ exponent`, negated when `negative`. -/
structure Parts where
  negative : Bool
  significand : Nat
  exponent : Int
  deriving Repr, DecidableEq

/-- The three shapes of a double. -/
inductive Shape where
  | finite (parts : Parts)
  | infinite (negative : Bool)
  | notANumber
  deriving Repr, DecidableEq

/-- Whether the sign bit of a double is set. -/
def isNegative (x : Float) : Bool := Nat.pow 2 63 ≤ x.toBits.toNat

/-- The exponent field of a double. -/
def exponentField (x : Float) : Nat := x.toBits.toNat / Nat.pow 2 52 % 2048

/-- The exponent of the smallest positive double. -/
def leastExponent : Int := -1074

/-- Split the bits of a double into its sign, exponent and fraction fields. -/
def shape (x : Float) : Shape :=
  let bits : Nat := x.toBits.toNat
  let negative := isNegative x
  let field := exponentField x
  let fraction := bits % Nat.pow 2 52
  if field = 2047 then
    if fraction = 0 then .infinite negative else .notANumber
  else if field = 0 then
    .finite ⟨negative, fraction, leastExponent⟩
  else
    .finite ⟨negative, Nat.pow 2 52 + fraction, (field : Int) - 1075⟩

/-- The bits of positive infinity, which are also the first that overflow. -/
def infinityBits : Nat := 2047 * Nat.pow 2 52

/-- A double from its sign and the 63 bits of its magnitude. -/
def ofMagnitudeBits
    (negative : Bool)
    (magnitude : Nat) :
    Float :=
  let sign := if negative then Nat.pow 2 63 else 0
  Float.ofBits (UInt64.ofNat (sign + min magnitude infinityBits))

/-- The fraction `numerator / denominator` divided by `2 ^ exponent`. -/
def scaleDown
    (numerator denominator : Nat)
    (exponent : Int) :
    Nat × Nat :=
  if 0 ≤ exponent then
    (numerator, denominator * Nat.pow 2 exponent.toNat)
  else
    (numerator * Nat.pow 2 (-exponent).toNat, denominator)

/--
The double nearest to `numerator / denominator`, ties to the even significand.
The exponent is the one that leaves 53 bits before the point, or the least one.
-/
def nearestFraction
    (negative : Bool)
    (numerator denominator : Nat) :
    Float :=
  if numerator = 0 then
    ofMagnitudeBits negative 0
  else
    let guess : Int := (numerator.log2 : Int) - denominator.log2 - 52
    let (top, bottom) := scaleDown numerator denominator guess
    let exact := if top < Nat.pow 2 52 * bottom then guess - 1 else guess
    let exponent := max exact leastExponent
    let (top, bottom) := scaleDown numerator denominator exponent
    let significand := Rounding.nearest .toEven top bottom
    ofMagnitudeBits negative
      ((exponent - leastExponent).toNat * Nat.pow 2 52 + significand)

/-- The double nearest to `significand * 2 ^ exponent`. -/
def nearestScaled
    (negative : Bool)
    (significand : Nat)
    (exponent : Int) :
    Float :=
  if 0 ≤ exponent then
    nearestFraction negative (significand * Nat.pow 2 exponent.toNat) 1
  else
    nearestFraction negative significand (Nat.pow 2 (-exponent).toNat)

/-- The canonical not-a-number. -/
def notANumber : Float := Float.ofBits 0x7ff8000000000000

/--
The remainder of a division truncated toward zero.  It is exact, has the sign
of the dividend, and is not a number for an infinite dividend or a zero divisor.
-/
def remainder (dividend divisor : Float) : Float :=
  match shape dividend, shape divisor with
  | .finite left, .finite right =>
      if right.significand = 0 then
        notANumber
      else
        let exponent := min left.exponent right.exponent
        let leftUnits := left.significand * Nat.pow 2 (left.exponent - exponent).toNat
        let rightUnits := right.significand * Nat.pow 2 (right.exponent - exponent).toNat
        nearestScaled left.negative (leftUnits % rightUnits) exponent
  | .finite _, .infinite _ => dividend
  | _, _ => notANumber

end LedSketch.Binary64
