import LedSketch.Native.Arguments
import LedSketch.Number.Power
import LedSketch.Number.Trigonometry

namespace LedSketch.Native

/-!
# Native functions

What a call of a native function returns and changes.  A delay lets time pass and
then asks to be suspended.
-/

open Script

/-- What a native function answers. -/
inductive Response where
  | value (value : Value)
  /-- The run is to be suspended; the call returns `undefined` afterwards. -/
  | suspend

/-- The smaller or the larger one of two numbers; the first one if `preferFirst` agrees. -/
def extremum
    (smaller : Bool)
    (arguments : List Value) :
    Except TypeFault Value := do
  let first := Arguments.value arguments 0
  let second := Arguments.value arguments 1
  let firstIsLess ←
    if first.isFloat || second.isFloat then do
      let left ← first.toFloat
      let right ← second.toFloat
      pure (decide (left ≤ right))
    else do
      let left ← first.toInt64
      let right ← second.toInt64
      pure (decide (left ≤ right))
  return if firstIsLess = smaller then first else second

/-- The absolute value of a number. -/
def absolute (value : Value) : Except TypeFault Value :=
  match value with
  | .float value => .ok (.float value.abs)
  | value => value.toInt64.map fun value => .int (if value < 0 then -value else value)

/-- A number held between two others. -/
def constrain (arguments : List Value) : Except TypeFault Value := do
  if Arguments.anyFloat 3 arguments then
    let x ← Arguments.float arguments 0
    let low ← Arguments.float arguments 1
    let high ← Arguments.float arguments 2
    return .float (if x < low then low else if high < x then high else x)
  else
    let x ← Arguments.int arguments 0
    let low ← Arguments.int arguments 1
    let high ← Arguments.int arguments 2
    return .int (if x < low then low else if high < x then high else x)

/--
A number carried from one range to another in proportion: on integers, with
arithmetic that wraps and a quotient cut off toward zero, unless a float takes part.
-/
def mapRange (arguments : List Value) : Except TypeFault Value := do
  if Arguments.anyFloat 5 arguments then
    let x ← Arguments.float arguments 0
    let fromLow ← Arguments.float arguments 1
    let fromHigh ← Arguments.float arguments 2
    let toLow ← Arguments.float arguments 3
    let toHigh ← Arguments.float arguments 4
    return .float ((x - fromLow) * (toHigh - toLow) / (fromHigh - fromLow) + toLow)
  else
    let x ← Arguments.int arguments 0
    let fromLow ← Arguments.int arguments 1
    let fromHigh ← Arguments.int arguments 2
    let toLow ← Arguments.int arguments 3
    let toHigh ← Arguments.int arguments 4
    let span := fromHigh - fromLow
    if span = 0 then
      throw .emptyRange
    else
      return .int ((x - fromLow) * (toHigh - toLow) / span + toLow)

/-- The color order that the third argument of a strip names. -/
def orderArgument (arguments : List Value) : Native ColorOrder := do
  match Arguments.value arguments 2 with
  | .undefined => return (← get).board.defaultOrder
  | .text name => ofStrip (ColorOrder.ofName name)
  | other => throw (.strip (.orderNotText other.typeName))

/-- Make a strip from its pixel count, its pin and perhaps its color order. -/
def callCreateStrip (arguments : List Value) : Native Value := do
  ofType (Arguments.atLeast 2 Builtin.createStrip.name arguments)
  let order ← orderArgument arguments
  let count ← ofType (Arguments.int arguments 0)
  let pin ← ofType (Arguments.int arguments 1)
  return .object (.strip (← createStrip count pin order))

/-- Make a button from its label. -/
def callCreateButton (arguments : List Value) : Native Value := do
  ofType (Arguments.atLeast 1 Builtin.createButton.name arguments)
  let label ← display (Arguments.value arguments 0)
  return .object (.button (← createButton label))

/-- A random integer below one bound, or between two. -/
def callRandom (arguments : List Value) : Native Value := do
  ofType (Arguments.atLeast 1 Builtin.random.name arguments)
  let first ← ofType (Arguments.int arguments 0)
  if arguments.length < 2 then
    return .int (← randomBetween 0 first)
  else
    let second ← ofType (Arguments.int arguments 1)
    return .int (← randomBetween first second)

/-- An array of zeros. -/
def callArray (arguments : List Value) : Native Value := do
  let length ← ofType (Arguments.int arguments 0)
  if length < 0 then
    throw (.type .negativeLength)
  else
    return .array (← makeArray (Array.replicate length.toInt.toNat (.int 0)))

/-- Call a native function. -/
def callBuiltin
    (builtin : Builtin)
    (arguments : List Value) :
    Native Response := do
  match builtin with
  | .createStrip => return .value (← callCreateStrip arguments)
  | .createButton => return .value (← callCreateButton arguments)
  | .delay =>
      let amount ← ofType (Arguments.int arguments 0)
      passTime fun clock => clock.passMillis amount.toInt
      return .suspend
  | .delayMicroseconds =>
      let amount ← ofType (Arguments.int arguments 0)
      passTime fun clock => clock.passMicros amount.toInt
      return .suspend
  | .millis => return .value (.int (Int64.ofNat (← get).board.clock.millis))
  | .micros => return .value (.int (Int64.ofNat (← get).board.clock.micros))
  | .random => return .value (← callRandom arguments)
  | .randomSeed =>
      let seed ← ofType (Arguments.int arguments 0)
      seedRandom seed.toUInt64
      return .value .undefined
  | .min =>
      ofType (Arguments.atLeast 2 builtin.name arguments)
      return .value (← ofType (extremum true arguments))
  | .max =>
      ofType (Arguments.atLeast 2 builtin.name arguments)
      return .value (← ofType (extremum false arguments))
  | .abs => return .value (← ofType (absolute (Arguments.value arguments 0)))
  | .constrain =>
      ofType (Arguments.atLeast 3 builtin.name arguments)
      return .value (← ofType (constrain arguments))
  | .map =>
      ofType (Arguments.atLeast 5 builtin.name arguments)
      return .value (← ofType (mapRange arguments))
  | .sqrt =>
      let x ← ofType (Arguments.float arguments 0)
      return .value (.float x.sqrt)
  | .pow =>
      let base ← ofType (Arguments.float arguments 0)
      let exponent ← ofType (Arguments.float arguments 1)
      return .value (.float (Power.power base exponent))
  | .sin =>
      let x ← ofType (Arguments.float arguments 0)
      return .value (.float (Trigonometry.sine x))
  | .cos =>
      let x ← ofType (Arguments.float arguments 0)
      return .value (.float (Trigonometry.cosine x))
  | .array => return .value (← callArray arguments)

end LedSketch.Native
