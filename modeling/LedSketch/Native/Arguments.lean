import LedSketch.Native.Basic
import LedSketch.Script.Operation

namespace LedSketch.Arguments

/-!
# Arguments of native calls

A missing argument counts as `undefined`, and some arguments have a default for
that.  Channels are clamped into a byte; packed colors keep their low 32 bits.
-/

open Script

/-- The argument at a position. -/
def value
    (arguments : List Value)
    (position : Nat) :
    Value :=
  (arguments[position]?).getD .undefined

/-- An integer argument. -/
def int
    (arguments : List Value)
    (position : Nat) :
    Except TypeFault Int64 :=
  (value arguments position).toInt64

/-- A float argument. -/
def float
    (arguments : List Value)
    (position : Nat) :
    Except TypeFault Float :=
  (value arguments position).toFloat

/-- An integer argument with a default. -/
def intOr
    (arguments : List Value)
    (position : Nat)
    (default : Int64) :
    Except TypeFault Int64 :=
  match value arguments position with
  | .undefined => .ok default
  | given => given.toInt64

/-- A color channel; a missing one is off. -/
def channel
    (arguments : List Value)
    (position : Nat) :
    Except TypeFault UInt8 :=
  match value arguments position with
  | .undefined => .ok 0
  | .float given => .ok (Level.ofFloat given)
  | given => given.toInt64.map fun given => Level.ofInt given.toInt

/-- A packed color; a missing one is black. -/
def color
    (arguments : List Value)
    (position : Nat) :
    Except TypeFault UInt32 :=
  (intOr arguments position 0).map fun given => given.toUInt64.toUInt32

/-- Four color channels from a position on. -/
def channels
    (arguments : List Value)
    (first : Nat) :
    Except TypeFault Color := do
  let red ← channel arguments first
  let green ← channel arguments (first + 1)
  let blue ← channel arguments (first + 2)
  let white ← channel arguments (first + 3)
  return ⟨red, green, blue, white⟩

/-- Refuse fewer arguments than a native function needs. -/
def atLeast
    (least : Nat)
    (name : String)
    (arguments : List Value) :
    Except TypeFault Unit :=
  if arguments.length < least then
    .error (.tooFewArguments name least arguments.length)
  else
    .ok ()

/-- Whether one of the first arguments is a float. -/
def anyFloat
    (count : Nat)
    (arguments : List Value) :
    Bool :=
  (arguments.take count).any Value.isFloat

end LedSketch.Arguments
