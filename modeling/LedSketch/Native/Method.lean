import LedSketch.Color.Hue
import LedSketch.Native.Arguments
import LedSketch.Number.Radix

namespace LedSketch.Native

/-!
# Methods of native objects

Strips, buttons, the serial line and the static color helpers.
-/

open Script

/-- A packed color as a value. -/
def colorValue (word : UInt32) : Value := .int (Int64.ofNat word.toNat)

/-- The fault of an unknown method. -/
def unknownMethod (object name : String) : CallFault :=
  .type (.unknownMethod object name)

/-- The result of a computation that may find a wrong type, as a call's result. -/
def typed : Except TypeFault Value → Except CallFault Value
  | .ok value => .ok value
  | .error fault => .error (.type fault)

/-- The color of a hue, which wraps, with a saturation and a value, which clamp. -/
def hueColor (arguments : List Value) : Except TypeFault Value := do
  let hue ← Arguments.intOr arguments 0 0
  let saturation ← Arguments.intOr arguments 1 255
  let value ← Arguments.intOr arguments 2 255
  return colorValue
    (Hue.toPacked (UInt32.ofNat (hue.toInt % 65536).toNat)
      (Level.ofInt saturation.toInt) (Level.ofInt value.toInt))

/-- The corrected level of an integer. -/
def gammaLevel (arguments : List Value) : Except CallFault Value :=
  match Arguments.int arguments 0 with
  | .error fault => .error (.type fault)
  | .ok given =>
      match Gamma.level? given.toInt with
      | .ok level => .ok (.int (Int64.ofNat level.toNat))
      | .error error => .error (.color error)

/-- The color helpers that strips and the static object share. -/
def colorHelper?
    (name : String)
    (arguments : List Value) :
    Option (Except CallFault Value) :=
  match name with
  | "Color" =>
      some (typed ((Arguments.channels arguments 0).map fun color =>
        colorValue color.packed))
  | "ColorHSV" => some (typed (hueColor arguments))
  | "gamma8" => some (gammaLevel arguments)
  | "gamma32" =>
      some (typed ((Arguments.color arguments 0).map fun word =>
        colorValue (Gamma.packed word)))
  | "Wheel" =>
      some (typed ((Arguments.int arguments 0).map fun position =>
        colorValue (Hue.wheel (UInt8.ofNat (position.toInt % 256).toNat))))
  | _ => none

/-- The color that `setPixelColor` stores: a packed one, or two to four channels. -/
def pixelArgument (arguments : List Value) : Except TypeFault Color :=
  match arguments.length with
  | 2 => (Arguments.color arguments 1).map Color.ofPacked
  | 3 => Arguments.channels arguments 1
  | 4 => Arguments.channels arguments 1
  | 5 => Arguments.channels arguments 1
  | got => .error (.pixelArguments got)

/-- Call a method of a strip. -/
def callStrip
    (id : Nat)
    (name : String)
    (arguments : List Value) :
    Native Value := do
  match name with
  | "begin" =>
      let _ ← strip id
      return .undefined
  | "show" =>
      showStrip id
      return .undefined
  | "canShow" =>
      let _ ← strip id
      return .bool true
  | "numPixels" => return .int (Int64.ofNat (← strip id).size)
  | "getPin" => return .int (← strip id).pin
  | "clear" =>
      changeStrip id fun strip => .ok strip.clear
      return .undefined
  | "fill" =>
      let word ← ofType (Arguments.color arguments 0)
      let first ← ofType (Arguments.intOr arguments 1 0)
      let count ← ofType (Arguments.intOr arguments 2 0)
      changeStrip id fun strip => strip.fill word first.toInt count.toInt
      return .undefined
  | "setPixelColor" =>
      let position ← ofType (Arguments.int arguments 0)
      let color ← ofType (pixelArgument arguments)
      changeStrip id fun strip => strip.setPixel position.toInt color
      return .undefined
  | "getPixelColor" =>
      let position ← ofType (Arguments.int arguments 0)
      let found ← strip id
      return colorValue (← ofStrip (found.pixel position.toInt))
  | "setBrightness" =>
      let brightness ← ofType (Arguments.channel arguments 0)
      changeStrip id fun strip => .ok (strip.setBrightness brightness)
      return .undefined
  | "getBrightness" =>
      return .int (Int64.ofNat (← strip id).brightness.toNat)
  | _ =>
      match colorHelper? name arguments with
      | some result =>
          checkLive
          ofCall result
      | none => throw (unknownMethod "Adafruit_NeoPixel" name)

/-- Call a method of a button. -/
def callButton
    (id : Nat)
    (name : String)
    (arguments : List Value) :
    Native Value := do
  match name with
  | "onClick" =>
      let handler := Arguments.value arguments 0
      if handler.isCallable then
        setHandler id handler
        return .undefined
      else
        throw (.type (.callbackExpected handler.typeName))
  | _ => throw (unknownMethod "Button" name)

/-- The text of an integer in a format; other bases than ten show the low 32 bits. -/
def intText (value format : Int64) : String :=
  if format < 2 || format = 10 then
    toString value.toInt
  else
    Radix.text (min format.toInt 36).toNat value.toUInt64.toUInt32.toNat

/--
The text that printing a value emits.  The format of a float is its number of
decimals, that of an integer its base.
-/
def serialText (arguments : List Value) : Native String := do
  match arguments with
  | [] => return ""
  | [value] => display value
  | value :: format :: _ =>
      let format ← ofType format.toInt64
      match value with
      | .float number => return Decimal.fixed format.toInt.toNat number
      | .int number => return intText number format
      | .bool truth => return intText (if truth then 1 else 0) format
      | other => display other

/-- Call a method of the serial line. -/
def callSerial
    (name : String)
    (arguments : List Value) :
    Native Value := do
  match name with
  | "begin" =>
      checkLive
      return .undefined
  | "print" =>
      print (← serialText arguments)
      return .undefined
  | "println" =>
      printLine (← serialText arguments)
      return .undefined
  | _ => throw (unknownMethod "Serial" name)

/-- Call a static color helper. -/
def callNeoPixel
    (name : String)
    (arguments : List Value) :
    Native Value :=
  match colorHelper? name arguments with
  | some result => ofCall result
  | none => throw (unknownMethod "NeoPixel" name)

/-- Call a method of a native object. -/
def callMethod
    (handle : Handle)
    (name : String)
    (arguments : List Value) :
    Native Value :=
  match handle with
  | .strip id => callStrip id name arguments
  | .button id => callButton id name arguments
  | .serial => callSerial name arguments
  | .neoPixel => callNeoPixel name arguments

end LedSketch.Native
