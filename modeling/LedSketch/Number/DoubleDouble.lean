namespace LedSketch

/-!
# Numbers of two doubles

A sum of two doubles that is not carried out holds about twice as many digits as
one double.
-/

/-- A sum of two doubles, the second one small beside the first. -/
structure DoubleDouble where
  head : Float
  tail : Float

/-- The value of a polynomial from its coefficients, the constant one first. -/
def polynomial (x : Float) : List Float → Float
  | [] => 0.0
  | [last] => last
  | coefficient :: rest => coefficient + x * polynomial x rest

end LedSketch
