import LedSketch.Script.Syntax

namespace LedSketch.Script

/-!
# Values

What a script computes with.  Arrays are shared, so a value holds only the
number of its array; functions are equal when one declaration event made them.
-/

/-- The native functions. -/
inductive Builtin where
  | createStrip
  | createButton
  | delay
  | delayMicroseconds
  | millis
  | micros
  | random
  | randomSeed
  | min
  | max
  | abs
  | constrain
  | map
  | sqrt
  | pow
  | sin
  | cos
  | array
  deriving Repr, DecidableEq

namespace Builtin

/-- Every native function, in the order they are bound. -/
def all : List Builtin := [
  .createStrip, .createButton, .delay, .delayMicroseconds, .millis, .micros,
  .random, .randomSeed, .min, .max, .abs, .constrain, .map, .sqrt, .pow, .sin,
  .cos, .array]

/-- The name a sketch calls a native function by. -/
def name : Builtin → String
  | .createStrip => "createStrip"
  | .createButton => "createButton"
  | .delay => "delay"
  | .delayMicroseconds => "delayMicroseconds"
  | .millis => "millis"
  | .micros => "micros"
  | .random => "random"
  | .randomSeed => "randomSeed"
  | .min => "min"
  | .max => "max"
  | .abs => "abs"
  | .constrain => "constrain"
  | .map => "map"
  | .sqrt => "sqrt"
  | .pow => "pow"
  | .sin => "sin"
  | .cos => "cos"
  | .array => "array"

/-- The native function of a name. -/
def ofName? (name : String) : Option Builtin :=
  all.find? fun builtin => builtin.name = name

/-- Whether a call hands control back to the host. -/
def suspends : Builtin → Bool
  | .delay => true
  | .delayMicroseconds => true
  | _ => false

end Builtin

/-- The native objects. -/
inductive Handle where
  | strip (id : Nat)
  | button (id : Nat)
  | serial
  | neoPixel
  deriving Repr, DecidableEq

/-- How a native object is printed. -/
def Handle.display : Handle → String
  | .strip id => "Strip(" ++ toString id ++ ")"
  | .button id => "Button(" ++ toString id ++ ")"
  | .serial => "Serial"
  | .neoPixel => "NeoPixel"

/--
A function with the scope it was declared in.  All functions that one entry into
a block declares share their `birth`; no other functions have it.
-/
structure Closure where
  function : Function
  scope : Nat
  birth : Nat

/-- Whether two functions come from the same declaration event. -/
def Closure.same (left right : Closure) : Bool :=
  left.birth = right.birth && left.function.name = right.function.name

/-- The values of the script language. -/
inductive Value where
  | undefined
  | bool (value : Bool)
  | int (value : Int64)
  | float (value : Float)
  | text (value : String)
  | array (id : Nat)
  | function (closure : Closure)
  | builtin (builtin : Builtin)
  | object (handle : Handle)

/-- A number as arithmetic sees it. -/
inductive Numeric where
  | int (value : Int64)
  | float (value : Float)

namespace Numeric

/-- The integer of a number; a float is cut off toward zero and clamped. -/
def toInt64 : Numeric → Int64
  | .int value => value
  | .float value => value.toInt64

/-- The float of a number. -/
def toFloat : Numeric → Float
  | .int value => value.toFloat
  | .float value => value

end Numeric

namespace Value

/-- The name of a value's type in messages. -/
def typeName : Value → String
  | .undefined => "undefined"
  | .bool _ => "bool"
  | .int _ => "number"
  | .float _ => "number"
  | .text _ => "string"
  | .array _ => "array"
  | .function _ => "function"
  | .builtin _ => "function"
  | .object _ => "object"

/-- Whether a test takes a value for true. -/
def truthy : Value → Bool
  | .undefined => false
  | .bool value => value
  | .int value => value ≠ 0
  | .float value => value != 0.0 && !value.isNaN
  | .text value => !value.isEmpty
  | .array _ => true
  | .function _ => true
  | .builtin _ => true
  | .object _ => true

/-- Whether a value is a float. -/
def isFloat : Value → Bool
  | .float _ => true
  | _ => false

/-- Whether a value is text. -/
def isText : Value → Bool
  | .text _ => true
  | _ => false

/-- Whether a value can be called. -/
def isCallable : Value → Bool
  | .function _ => true
  | .builtin _ => true
  | _ => false

/-- The number that a value stands for; a truth value stands for 0 or 1. -/
def numeric? : Value → Option Numeric
  | .bool value => some (.int (if value then 1 else 0))
  | .int value => some (.int value)
  | .float value => some (.float value)
  | _ => none

end Value

end LedSketch.Script
