import LedSketch.Number.Decimal
import LedSketch.Script.Value

namespace LedSketch.Script

/-!
# Arrays

Arrays are kept by number in the order they were made.  They are never freed
and never change their length.
-/

/-- All arrays of a run. -/
structure Heap where
  arrays : Array (Array Value)

namespace Heap

/-- The heap without arrays. -/
def empty : Heap := ⟨#[]⟩

/-- The length of an array; zero if there is none of that number. -/
def length
    (heap : Heap)
    (id : Nat) :
    Nat :=
  match heap.arrays[id]? with
  | some items => items.size
  | none => 0

/-- The item of an array at a position. -/
def get?
    (heap : Heap)
    (id position : Nat) :
    Option Value :=
  heap.arrays[id]?.bind fun items => items[position]?

/-- Store an item of an array; a position it does not have is ignored. -/
def set
    (heap : Heap)
    (id position : Nat)
    (value : Value) :
    Heap :=
  ⟨heap.arrays.modify id fun items => items.setIfInBounds position value⟩

/-- Make an array. -/
def allocate
    (heap : Heap)
    (items : Array Value) :
    Nat × Heap :=
  (heap.arrays.size, ⟨heap.arrays.push items⟩)

/-- The text of a value that is no array. -/
def displayAtom : Value → String
  | .undefined => "undefined"
  | .bool value => if value then "1" else "0"
  | .int value => toString value.toInt
  | .float value => Decimal.fixed 2 value
  | .text value => value
  | .array _ => ""
  | .function closure => "function " ++ closure.function.name
  | .builtin builtin => "function " ++ builtin.name
  | .object handle => handle.display

/-- The text of a value whose arrays nest at most `depth` deep. -/
def displayWithin
    (heap : Heap) :
    Nat → Value → String
  | 0, value => displayAtom value
  | depth + 1, .array id =>
      let items := (heap.arrays[id]?.getD #[]).toList
      "[" ++ String.intercalate ", " (items.map (heap.displayWithin depth)) ++ "]"
  | _ + 1, value => displayAtom value

/-- The text of a value as the serial line shows it. -/
def display
    (heap : Heap)
    (value : Value) :
    String :=
  heap.displayWithin (heap.arrays.size + 1) value

/-- Storing an item leaves every length as it is. -/
@[simp] theorem length_set
    (heap : Heap)
    (id position : Nat)
    (value : Value)
    (other : Nat) :
    (heap.set id position value).length other = heap.length other := by
  simp only [length, set, Array.getElem?_modify]
  by_cases same : id = other
  · cases heap.arrays[other]? <;> simp [same]
  · simp [same]

end Heap

end LedSketch.Script
