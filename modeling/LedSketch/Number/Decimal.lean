import LedSketch.Number.Binary64

namespace LedSketch.Decimal

/-!
# Decimal text of doubles

Three conversions: a fixed number of decimals, the fewest digits that identify
the double, and the double nearest to a decimal literal.  Each works on exact
fractions; neither text ever uses an exponent.
-/

/-- The decimal digits of a natural number, most significant first. -/
def digits (n : Nat) : List Char := Nat.toDigits 10 n

/-- Pad digits with zeros on the left until there are `width` of them. -/
def padLeft
    (width : Nat)
    (text : List Char) :
    List Char :=
  List.replicate (width - text.length) '0' ++ text

/-- The text of `units / 10 ^ places`, all places written. -/
def pointed
    (places units : Nat) :
    List Char :=
  let text := padLeft (places + 1) (digits units)
  let whole := text.take (text.length - places)
  if places = 0 then
    whole
  else
    whole ++ '.' :: text.drop (text.length - places)

/-- Put a minus sign in front of the text of a negative number, zero included. -/
def signed
    (negative : Bool)
    (text : List Char) :
    String :=
  String.ofList (if negative then '-' :: text else text)

/-- A finite double as a fraction of natural numbers. -/
def fraction (parts : Binary64.Parts) : Nat × Nat :=
  if 0 ≤ parts.exponent then
    (parts.significand * Nat.pow 2 parts.exponent.toNat, 1)
  else
    (parts.significand, Nat.pow 2 (-parts.exponent).toNat)

/-- A double with exactly `places` decimals; a half goes to the even digit. -/
def fixed
    (places : Nat)
    (x : Float) :
    String :=
  match Binary64.shape x with
  | .notANumber => "NaN"
  | .infinite negative => signed negative "inf".toList
  | .finite parts =>
      let (numerator, denominator) := fraction parts
      signed parts.negative
        (pointed places
          (Rounding.nearest .toEven (numerator * Nat.pow 10 places) denominator))

/-- The reals that round to one positive double, all over one denominator. -/
structure Interval where
  low : Nat
  value : Nat
  high : Nat
  denominator : Nat
  closed : Bool

/--
The interval of a positive double.  Below a power of two the neighbour is only
half as far away.  The ends belong to it when the significand is even.
-/
def Interval.ofParts (parts : Binary64.Parts) : Interval :=
  let half :=
    if parts.significand = Nat.pow 2 52 ∧ Binary64.leastExponent < parts.exponent then
      1
    else
      2
  let quarter := parts.exponent - 2
  let up := Nat.pow 2 quarter.toNat
  { low := (4 * parts.significand - half) * up
    value := 4 * parts.significand * up
    high := (4 * parts.significand + 2) * up
    denominator := Nat.pow 2 (-quarter).toNat
    closed := parts.significand % 2 = 0 }

/-- Whether the decimal `digits * unit` rounds to the double of the interval. -/
def Interval.contains
    (interval : Interval)
    (scaled : Nat) :
    Bool :=
  if interval.closed then
    interval.low ≤ scaled && scaled ≤ interval.high
  else
    interval.low < scaled && scaled < interval.high

/-- A decimal `significand * 10 ^ exponent`. -/
structure Scaled where
  significand : Nat
  exponent : Int
  deriving Repr, DecidableEq

/--
The multiple of `10 ^ exponent` next to the double that lies in its interval,
the nearer one if both neighbours do, and the larger one on a tie.
-/
def Interval.onGrid
    (interval : Interval)
    (exponent : Int) :
    Option Scaled :=
  let up := Nat.pow 10 exponent.toNat
  let down := Nat.pow 10 (-exponent).toNat
  let widened : Interval :=
    { interval with
      low := interval.low * down
      value := interval.value * down
      high := interval.high * down }
  let unit := interval.denominator * up
  let below := widened.value / unit
  let lower := widened.contains (below * unit)
  let upper := widened.contains ((below + 1) * unit)
  if lower && upper then
    some ⟨Rounding.nearest .up widened.value unit, exponent⟩
  else if lower then
    some ⟨below, exponent⟩
  else if upper then
    some ⟨below + 1, exponent⟩
  else
    none

/-- How many decimal digits a positive double has before its point; negative below 0.1. -/
def Interval.magnitude (interval : Interval) : Int :=
  let shift : Nat := 400
  let units := interval.value * Nat.pow 10 shift / interval.denominator
  ((digits units).length : Int) - shift

/-- The decimal with the fewest digits that still identifies a positive double. -/
def Interval.fewestDigits (interval : Interval) : Scaled :=
  let magnitude := interval.magnitude
  ((List.range 17).findSome? fun (count : Nat) =>
      interval.onGrid (magnitude - (count : Int) - 1)).getD
    ⟨Rounding.nearest .up (interval.value * Nat.pow 10 400) interval.denominator, -400⟩

/-- The text of `units / 10 ^ places`, without zeros at the end of the fraction. -/
def pointedTrimmed : Nat → Nat → List Char
  | 0, units => digits units
  | places + 1, units =>
      if units % 10 = 0 then
        pointedTrimmed places (units / 10)
      else
        pointed (places + 1) units

/-- Positional text of a decimal, without superfluous zeros after the point. -/
def Scaled.positional (decimal : Scaled) : List Char :=
  pointedTrimmed (-decimal.exponent).toNat
    (decimal.significand * Nat.pow 10 decimal.exponent.toNat)

/-- A double with the fewest digits that identify it, never in exponent form. -/
def shortest (x : Float) : String :=
  match Binary64.shape x with
  | .notANumber => "NaN"
  | .infinite negative => signed negative "inf".toList
  | .finite parts =>
      if parts.significand = 0 then
        signed parts.negative ['0']
      else
        signed parts.negative (Interval.ofParts parts).fewestDigits.positional

/--
The double nearest to `significand * 10 ^ exponent`.  Exponents far outside the
range of doubles are decided by the number of digits alone.
-/
def toFloat
    (significand : Nat)
    (exponent : Int) :
    Float :=
  let magnitude := exponent + (digits significand).length
  if significand = 0 ∨ magnitude < -400 then
    Binary64.ofMagnitudeBits false 0
  else if 400 < magnitude then
    Binary64.ofMagnitudeBits false Binary64.infinityBits
  else if 0 ≤ exponent then
    Binary64.nearestFraction false (significand * Nat.pow 10 exponent.toNat) 1
  else
    Binary64.nearestFraction false significand (Nat.pow 10 (-exponent).toNat)

end LedSketch.Decimal
