import LedSketch.Board.Strip

namespace LedSketch

/-!
# Events

What a host sees of a run: strips and buttons that appear, frames, and lines on
the serial line.
-/

/-- One thing that a host is told. -/
inductive Event where
  /-- A new run starts; everything shown before is forgotten. -/
  | reset
  | stripCreated (id : Nat) (pin : Int64) (count : Nat)
  | frameShown (id : Nat) (colors : Array ShownColor)
  | buttonCreated (id : Nat) (label : String)
  | serialLine (text : String)
  deriving Repr, DecidableEq

end LedSketch
