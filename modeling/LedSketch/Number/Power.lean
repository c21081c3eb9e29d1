import LedSketch.Number.Binary64
import LedSketch.Number.DoubleDouble

namespace LedSketch.Power

/-!
# Powers of doubles

A power is computed from the binary logarithm of its base.  The logarithm, and its
product with the exponent, are kept as sums of two doubles, so that the rounding
of the result is the only one that counts.  The order of the operations below
decides the last digit of a power.
-/

/-- A double without the lower half of its bits. -/
def head (x : Float) : Float :=
  Float.ofBits (x.toBits &&& 0xffffffff00000000)

/-- What kind of number an exponent is. -/
inductive Parity where
  | fraction
  | odd
  | even
  deriving Repr, DecidableEq

/-- The parity of a finite double. -/
def parity (x : Float) : Parity :=
  match Binary64.shape x with
  | .finite parts =>
      let units := Nat.pow 2 (-parts.exponent).toNat
      if 0 < parts.exponent then
        .even
      else if parts.significand % units ≠ 0 then
        .fraction
      else if parts.significand / units % 2 = 0 then
        .even
      else
        .odd
  | _ => .even

/-- The largest finite power and everything above it. -/
def infinity : Float := Float.ofBits 0x7ff0000000000000

/-- The power of an infinite exponent: it depends on whether the base shrinks or grows. -/
def infinitePower (base exponent : Float) : Float :=
  if base.abs == 1.0 then
    1.0
  else if (1.0 < base.abs) = (0.0 < exponent) then
    infinity
  else
    0.0

/-- The power of a base that is zero, infinite or one, up to its sign. -/
def trivialPower (base exponent : Float) : Float :=
  let size := if exponent < 0.0 then 1.0 / base.abs else base.abs
  if Binary64.isNegative base then
    match parity exponent with
    | .odd => -size
    | .even => size
    | .fraction => if base.abs == 1.0 then Binary64.notANumber else size
  else
    size

/-- The powers that need no logarithm. -/
def special? (base exponent : Float) : Option Float :=
  if exponent == 0.0 || base == 1.0 then
    some 1.0
  else if base.isNaN || exponent.isNaN then
    some Binary64.notANumber
  else if exponent.isInf then
    some (infinitePower base exponent)
  else if exponent == 1.0 then
    some base
  else if exponent == -1.0 then
    some (1.0 / base)
  else if exponent == 2.0 then
    some (base * base)
  else if exponent == 0.5 && !Binary64.isNegative base then
    some base.sqrt
  else if base == 0.0 || base.isInf || base == -1.0 then
    some (trivialPower base exponent)
  else if Binary64.isNegative base && parity exponent = .fraction then
    some Binary64.notANumber
  else
    none

/-- A size split into a factor from one up to two and a power of two. -/
def normalized (size : Float) : Float × Int :=
  let lifted := size * 9007199254740992.0
  let (scaled, offset) : Float × Int :=
    if size < 2.2250738585072014e-308 then (lifted, 53) else (size, 0)
  let bits := scaled.toBits
  (Float.ofBits ((bits &&& 0x000fffffffffffff) ||| 0x3ff0000000000000),
    (bits >>> 52).toNat - 1023 - offset)

/-- What a factor is compared with: one or three halves, and the logarithm of that. -/
structure Anchor where
  value : Float
  log : DoubleDouble
  /-- The place of the anchor in the upper bits of a double. -/
  bits : UInt64

/-- The anchor one. -/
def anchorOne : Anchor := ⟨1.0, ⟨0.0, 0.0⟩, 0⟩

/-- The anchor three halves. -/
def anchorThreeHalves : Anchor :=
  ⟨1.5, ⟨5.84962487220764160156e-01, 1.35003920212974897128e-08⟩, 0x40000⟩

/-- Coefficients of the series for a logarithm from `(x - a) / (x + a)`. -/
def logSeries : List Float := [
  5.99999999999994648725e-01, 4.28571428578550184252e-01, 3.33333329818377432918e-01,
  2.72728123808534006489e-01, 2.30660745775561754067e-01, 2.06975017800338417784e-01]

/-- The binary logarithm of a factor near an anchor, plus a whole number. -/
def logNear
    (anchor : Anchor)
    (factor whole : Float) :
    DoubleDouble :=
  let difference := factor - anchor.value
  let inverse := 1.0 / (factor + anchor.value)
  let ratio := difference * inverse
  let ratioHead := head ratio
  let sumHead := Float.ofBits
    ((((factor.toBits >>> 33) ||| 0x20000000) + 0x00080000 + anchor.bits) <<< 32)
  let sumTail := factor - (sumHead - anchor.value)
  let ratioTail := inverse * ((difference - ratioHead * sumHead) - ratioHead * sumTail)
  let square := ratio * ratio
  let series :=
    square * square * polynomial square logSeries + ratioTail * (ratioHead + ratio)
  let headSquare := ratioHead * ratioHead
  let restHead := head (3.0 + headSquare + series)
  let restTail := series - ((restHead - 3.0) - headSquare)
  let large := ratioHead * restHead
  let small := ratioTail * restHead + restTail * ratio
  let productHead := head (large + small)
  let productTail := small - (productHead - large)
  let scaledHead := 9.61796700954437255859e-01 * productHead
  let scaledTail :=
    -7.02846165095275826516e-09 * productHead +
      productTail * 9.61796693925975554329e-01 + anchor.log.tail
  let first := head (((scaledHead + scaledTail) + anchor.log.head) + whole)
  ⟨first, scaledTail - (((first - whole) - anchor.log.head) - scaledHead)⟩

/-- The binary logarithm of a positive finite double. -/
def log2 (size : Float) : DoubleDouble :=
  let (factor, exponent) := normalized size
  let fraction := (factor.toBits >>> 32) &&& 0xfffff
  if fraction ≤ 0x3988e then
    logNear anchorOne factor (Float.ofInt exponent)
  else if fraction < 0xbb67a then
    logNear anchorThreeHalves factor (Float.ofInt exponent)
  else
    logNear anchorOne (factor / 2.0) (Float.ofInt (exponent + 1))

/-- The binary logarithm of a double that differs from one by less than a millionth. -/
def log2NearOne (size : Float) : DoubleDouble :=
  let excess := size - 1.0
  let square :=
    (excess * excess) *
      (0.5 - excess * (0.3333333333333333333333 - excess * 0.25))
  let large := 1.44269502162933349609e+00 * excess
  let small :=
    excess * 1.92596299112661746887e-08 - square * 1.44269504088896338700e+00
  let first := head (large + small)
  ⟨first, small - (first - large)⟩

/-- Coefficients of the series for an exponential. -/
def expSeries : List Float := [
  1.66666666666666019037e-01, -2.77777777770155933842e-03, 6.61375632143793436117e-05,
  -1.65339022054652515390e-06, 4.13813679705723846039e-08]

/-- The whole number nearest to a double, judged by its upper bits, halves upwards. -/
def nearestWhole (x : Float) : Float :=
  let size := (head x).abs
  if 0.5 < size then
    let whole := (size + 0.5).floor
    if x < 0.0 then -whole else whole
  else
    0.0

/-- Two to the power of a sum. -/
def exp2 (exponent : DoubleDouble) : Float :=
  let whole := nearestWhole (exponent.tail + exponent.head)
  let rest := exponent.head - whole
  let first := head (exponent.tail + rest)
  let large := first * 6.93147182464599609375e-01
  let small :=
    (exponent.tail - (first - rest)) * 6.93147180559945286227e-01 +
      first * -1.90465429995776804525e-09
  let z := large + small
  let lost := small - (z - large)
  let square := z * z
  let series := z - square * polynomial square expSeries
  let ratio := (z * series) / (series - 2.0) - (lost + z * lost)
  (1.0 - (ratio - z)).scaleB whole.toInt64.toInt

/-- Two to the power of a logarithm times an exponent: zero or infinite out of range. -/
def raise
    (log : DoubleDouble)
    (exponent : Float) :
    Float :=
  let exponentHead := head exponent
  let tail := (exponent - exponentHead) * log.head + exponent * log.tail
  let large := exponentHead * log.head
  let z := tail + large
  if 1024.0 < z || (z == 1024.0 && z - large < tail + 8.0085662595372944372e-17) then
    infinity
  else if z < -1075.0 || (z == -1075.0 && tail ≤ z - large) then
    0.0
  else
    exp2 ⟨large, tail⟩

/-- The power of a positive base, neither one nor infinite, with a finite exponent. -/
def positivePower (base exponent : Float) : Float :=
  let grows : Bool := (1.0 < base) = (0.0 < exponent)
  let beyond := if grows then infinity else 0.0
  if 2147483648.0 < head exponent.abs then
    if 18446744073709551616.0 < head exponent.abs then
      beyond
    else if head base < Float.ofBits 0x3fefffff00000000 || 1.0 < head base then
      beyond
    else
      raise (log2NearOne base) exponent
  else
    raise (log2 base) exponent

/-- A base raised to an exponent. -/
def power (base exponent : Float) : Float :=
  match special? base exponent with
  | some result => result
  | none =>
      let size := positivePower base.abs exponent
      if Binary64.isNegative base && parity exponent = .odd then -size else size

end LedSketch.Power
