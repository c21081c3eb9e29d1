import LedSketch.Number.Binary64
import LedSketch.Script.Fault
import LedSketch.Script.Heap

namespace LedSketch.Script

/-!
# Operations on values

Integers stay integers, with arithmetic that wraps at 64 bits, until a float
takes part.  Text joins with anything and compares only with text.
-/

namespace Value

/-- The number of a value, or the fault that names its type. -/
def numeric (value : Value) : Except TypeFault Numeric :=
  match value.numeric? with
  | some number => .ok number
  | none => .error (.notANumber value.typeName)

/-- The integer of a value. -/
def toInt64 (value : Value) : Except TypeFault Int64 :=
  value.numeric.map Numeric.toInt64

/-- The float of a value. -/
def toFloat (value : Value) : Except TypeFault Float :=
  value.numeric.map Numeric.toFloat

/-- Whether two numbers are equal: as integers if both are. -/
def numericEqual : Numeric → Numeric → Bool
  | .int left, .int right => left = right
  | left, right => left.toFloat == right.toFloat

/--
Whether two values are equal.  Numbers and truth values compare by number, text
by content, and arrays, functions and native objects by identity.
-/
def equal (left right : Value) : Bool :=
  match left, right with
  | .undefined, .undefined => true
  | .text left, .text right => left = right
  | .array left, .array right => left = right
  | .function left, .function right => left.same right
  | .builtin left, .builtin right => left = right
  | .object left, .object right => left = right
  | left, right =>
      match left.numeric?, right.numeric? with
      | some left, some right => numericEqual left right
      | _, _ => false

/-- The order of two floats; none if one of them is not a number. -/
def orderFloats (left right : Float) : Option Ordering :=
  if left < right then
    some .lt
  else if left == right then
    some .eq
  else if right < left then
    some .gt
  else
    none

/-- The order of two numbers: as integers if both are. -/
def orderNumbers : Numeric → Numeric → Option Ordering
  | .int left, .int right => some (compare left.toInt right.toInt)
  | left, right => orderFloats left.toFloat right.toFloat

/-- The order of two texts. -/
def orderTexts (left right : String) : Ordering :=
  if left < right then
    .lt
  else if left = right then
    .eq
  else
    .gt

/-- The order of two texts or of two numbers. -/
def order (left right : Value) : Except TypeFault (Option Ordering) :=
  match left, right with
  | .text left, .text right => .ok (some (orderTexts left right))
  | left, right => do
      let left ← left.numeric
      let right ← right.numeric
      return orderNumbers left right

/-- Arithmetic on integers if both operands are, else on floats. -/
def arithmetic
    (onInts : Int64 → Int64 → Int64)
    (onFloats : Float → Float → Float)
    (left right : Value) :
    Except TypeFault Value := do
  let left ← left.numeric
  let right ← right.numeric
  match left, right with
  | .int left, .int right => return .int (onInts left right)
  | left, right => return .float (onFloats left.toFloat right.toFloat)

/-- Division or remainder: an integer is not divided by zero. -/
def divide
    (onInts : Int64 → Int64 → Int64)
    (onFloats : Float → Float → Float)
    (left right : Value) :
    Except TypeFault Value := do
  let left ← left.numeric
  let right ← right.numeric
  match left, right with
  | .int left, .int right =>
      if right = 0 then
        throw .divisionByZero
      else
        return .int (onInts left right)
  | left, right => return .float (onFloats left.toFloat right.toFloat)

/-- An operation on the integers of two values. -/
def bitwise
    (onInts : Int64 → Int64 → Int64)
    (left right : Value) :
    Except TypeFault Value := do
  let left ← left.toInt64
  let right ← right.toInt64
  return .int (onInts left right)

/-- A comparison, decided by the order of its operands. -/
def comparison
    (holds : Option Ordering → Bool)
    (left right : Value) :
    Except TypeFault Value := do
  return .bool (holds (← order left right))

/-- The sum of two values; text joins with the text of the other value. -/
def add
    (heap : Heap)
    (left right : Value) :
    Except TypeFault Value :=
  if left.isText || right.isText then
    .ok (.text (heap.display left ++ heap.display right))
  else
    arithmetic (· + ·) (· + ·) left right

/-- The result of a binary operator. -/
def binary
    (heap : Heap)
    (op : BinaryOp)
    (left right : Value) :
    Except TypeFault Value :=
  match op with
  | .add => add heap left right
  | .sub => arithmetic (· - ·) (· - ·) left right
  | .mul => arithmetic (· * ·) (· * ·) left right
  | .div => divide (· / ·) (· / ·) left right
  | .rem => divide (· % ·) Binary64.remainder left right
  | .bitAnd => bitwise (· &&& ·) left right
  | .bitOr => bitwise (· ||| ·) left right
  | .bitXor => bitwise (· ^^^ ·) left right
  | .shiftLeft => bitwise (fun value amount => value <<< (amount &&& 63)) left right
  | .shiftRight => bitwise (fun value amount => value >>> (amount &&& 63)) left right
  | .equal => .ok (.bool (equal left right))
  | .notEqual => .ok (.bool (!equal left right))
  | .less => comparison (· == some .lt) left right
  | .greater => comparison (· == some .gt) left right
  | .lessEqual => comparison (fun found => found == some .lt || found == some .eq) left right
  | .greaterEqual =>
      comparison (fun found => found == some .gt || found == some .eq) left right

/-- A number with the sign that an operator gives it. -/
def withSign
    (onInt : Int64 → Int64)
    (onFloat : Float → Float)
    (operand : Value) :
    Except TypeFault Value := do
  match ← operand.numeric with
  | .int value => return .int (onInt value)
  | .float value => return .float (onFloat value)

/-- The result of a unary operator. -/
def unary
    (op : UnaryOp)
    (operand : Value) :
    Except TypeFault Value :=
  match op with
  | .not => .ok (.bool (!operand.truthy))
  | .neg => withSign (fun value => -value) (fun value => -value) operand
  | .plus => withSign id id operand
  | .bitNot => operand.toInt64.map fun value => .int (~~~value)

/-- The number congruent to `value` that a word of the width and sign can hold. -/
def wrap
    (width : Width)
    (signed : Bool)
    (value : Int64) :
    Int64 :=
  match width with
  | .bits64 => value
  | width =>
      let modulus := Int.ofNat (Nat.pow 2 width.bits)
      let remainder := value.toInt % modulus
      if signed && modulus ≤ 2 * remainder then
        Int64.ofInt (remainder - modulus)
      else
        Int64.ofInt remainder

/-- The conversion of a value by a cast. -/
def cast
    (kind : CastKind)
    (operand : Value) :
    Except TypeFault Value :=
  match kind with
  | .float => operand.toFloat.map .float
  | .bool => .ok (.bool operand.truthy)
  | .int width signed => operand.toInt64.map fun value => .int (wrap width signed value)

end Value

end LedSketch.Script
