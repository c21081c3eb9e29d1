import LedSketch.Board.Strip
import LedSketch.Color.Gamma
import LedSketch.Script.ParseError

namespace LedSketch.Script

/-!
# Failures

The causes that end a run: a program that does not parse, a wrong use of values,
or a request that a strip or a color helper refuses.  A cause gets its line where
it is raised, and its text from one function.
-/

/-- The wrong uses of a value in a native call or an operator. -/
inductive TypeFault where
  | notANumber (found : String)
  | divisionByZero
  | unknownStrip (id : Nat)
  | unknownButton (id : Nat)
  | tooFewArguments (name : String) (least got : Nat)
  | negativeLength
  | emptyRange
  | unknownMethod (object name : String)
  | callbackExpected (found : String)
  | pixelArguments (got : Nat)
  deriving Repr, DecidableEq

/-- The message of a type fault. -/
def TypeFault.message : TypeFault → String
  | .notANumber found => "expected a number, found " ++ found
  | .divisionByZero => "division by zero"
  | .unknownStrip id => "unknown strip " ++ toString id
  | .unknownButton id => "unknown button " ++ toString id
  | .tooFewArguments name least got =>
      name ++ "() expects at least " ++ toString least ++ " argument(s), got " ++
        toString got
  | .negativeLength => "array length must not be negative"
  | .emptyRange => "map() input range is empty"
  | .unknownMethod object name => object ++ " has no method `" ++ name ++ "`"
  | .callbackExpected found => "onClick() expects a function, got " ++ found
  | .pixelArguments got =>
      "setPixelColor() expects 2 to 5 arguments, got " ++ toString got

/-- Why a native call did not return. -/
inductive CallFault where
  | strip (error : StripError)
  | color (error : Gamma.ColorError)
  | type (fault : TypeFault)
  /-- The run that made the call is no longer the current one. -/
  | superseded
  deriving Repr, DecidableEq

/-- What can go wrong while a program runs. -/
inductive RuntimeFault where
  | type (fault : TypeFault)
  | undefinedName (name : String)
  | undeclaredTarget (name : String)
  | notCallable (found : String)
  | callsExhausted
  | outlivedScope (name : String)
  | noMethod (found name : String)
  | unreadable (name found : String)
  | notIndexable (found : String)
  | positionOutOfRange (position : Int) (length : Nat)
  | invalidTarget
  | strayReturn
  | strayBreak
  deriving Repr, DecidableEq

/-- The message of a runtime fault. -/
def RuntimeFault.message : RuntimeFault → String
  | .type fault => fault.message
  | .undefinedName name => "`" ++ name ++ "` is not defined"
  | .undeclaredTarget name =>
      "assignment to undeclared variable `" ++ name ++ "`"
  | .notCallable found => found ++ " is not a function"
  | .callsExhausted => "call stack exhausted"
  | .outlivedScope name => "function " ++ name ++ " outlived its scope"
  | .noMethod found name => found ++ " has no method `" ++ name ++ "`"
  | .unreadable name found => "cannot read `" ++ name ++ "` of " ++ found
  | .notIndexable found => "cannot index " ++ found
  | .positionOutOfRange position length =>
      "index " ++ toString position ++ " out of range for array of length " ++
        toString length
  | .invalidTarget => "invalid assignment target"
  | .strayReturn => "return outside of a function"
  | .strayBreak => "break or continue outside of a loop"

/-- Why a run failed, with the line it failed on. -/
inductive Failure where
  | evaluation (error : ParseError)
  | runtime (line : Nat) (fault : RuntimeFault)
  | strip (line : Nat) (error : StripError)
  | color (line : Nat) (error : Gamma.ColorError)

namespace Failure

/-- The line a failure points at. -/
def line : Failure → Nat
  | .evaluation error => error.line
  | .runtime line _ => line
  | .strip line _ => line
  | .color line _ => line

/-- A failure as it is shown. -/
def display : Failure → String
  | .evaluation error =>
      "evaluation error on line " ++ toString error.line ++ ": " ++ error.message
  | .runtime line fault =>
      "runtime error on line " ++ toString line ++ ": " ++ fault.message
  | .strip line error =>
      "strip error on line " ++ toString line ++ ": " ++ error.message
  | .color line error =>
      "color error on line " ++ toString line ++ ": " ++ error.message

end Failure

/-- What stops a program before its end. -/
inductive Interrupt where
  | failed (failure : Failure)
  | superseded

namespace Interrupt

/-- A runtime fault on a line. -/
def runtime
    (line : Nat)
    (fault : RuntimeFault) :
    Interrupt :=
  .failed (.runtime line fault)

/-- The fault of a native call, on the line of the call. -/
def ofCall
    (line : Nat) :
    CallFault → Interrupt
  | .strip error => .failed (.strip line error)
  | .color error => .failed (.color line error)
  | .type fault => runtime line (.type fault)
  | .superseded => .superseded

end Interrupt

end LedSketch.Script
