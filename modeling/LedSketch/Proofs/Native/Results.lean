import LedSketch.Native.Builtin
import LedSketch.Native.Method
import LedSketch.Proofs.Script.Stores

namespace LedSketch.Native

/-!
# Results of native calls

Native calls make no functions: a function among their results was among their arguments.
-/

open Script

/-- An answer that is a good value, or none yet. -/
def Response.Hold
    (good : Value → Prop) :
    Response → Prop
  | .value found => good found
  | .suspend => True

section Results

variable {good : Value → Prop} {arguments : List Value}

theorem good_argument
    (plain : ConcernsFunctions good)
    (given : ∀ argument ∈ arguments, good argument)
    (position : Nat) :
    good (Arguments.value arguments position) := by
  unfold Arguments.value
  cases found : arguments[position]? with
  | none => exact plain.undefined
  | some argument => exact given argument (List.mem_of_getElem? found)

/-- The smaller and the larger one of two values are numbers, or there is none. -/
theorem yields_extremum
    (plain : ConcernsFunctions good)
    (arguments : List Value)
    (smaller : Bool) :
    Yields good (extremum smaller arguments) := by
  have isNumber {value : Value} {number : Numeric} (found : value.numeric = .ok number) :
      good value :=
    plain value fun closure same => by
      rw [same] at found
      contradiction
  unfold extremum Value.toFloat Value.toInt64
  dsimp only
  cases first : (Arguments.value arguments 0).numeric with
  | error fault => split <;> exact .error
  | ok left =>
      cases second : (Arguments.value arguments 1).numeric with
      | error fault => split <;> exact .error
      | ok right =>
          have chosen (firstIsLess : Bool) :
              good
                (if firstIsLess = smaller then Arguments.value arguments 0
                  else Arguments.value arguments 1) := by
            split
            · exact isNumber first
            · exact isNumber second
          split <;> exact .ok (chosen _)

theorem yields_absolute
    (plain : ConcernsFunctions good)
    (value : Value) :
    Yields good (absolute value) := by
  unfold absolute
  split
  · exact .ok (plain.float _)
  · exact .map fun _ => plain.int _

theorem yields_constrain
    (plain : ConcernsFunctions good)
    (arguments : List Value) :
    Yields good (constrain arguments) := by
  unfold constrain
  split
  · exact .bind fun _ => .bind fun _ => .bind fun _ => .ok (plain.float _)
  · exact .bind fun _ => .bind fun _ => .bind fun _ => .ok (plain.int _)

theorem yields_mapRange
    (plain : ConcernsFunctions good)
    (arguments : List Value) :
    Yields good (mapRange arguments) := by
  unfold mapRange
  split
  · exact .bind fun _ => .bind fun _ => .bind fun _ => .bind fun _ => .bind fun _ =>
      .ok (plain.float _)
  · refine .bind fun _ => .bind fun _ => .bind fun _ => .bind fun _ => .bind fun _ => ?_
    dsimp only
    split
    · exact .error
    · exact .ok (plain.int _)

theorem yields_colorHelper?
    {name : String}
    {computed : Except CallFault Value}
    (plain : ConcernsFunctions good)
    (found : colorHelper? name arguments = some computed) :
    Yields good computed := by
  have typed {computed : Except TypeFault Value} (yields : Yields good computed) :
      Yields good (Native.typed computed) := by
    cases computed with
    | ok value => exact .ok (yields value rfl)
    | error fault => exact .error
  unfold colorHelper? at found
  split at found <;> cases found
  · exact typed (.map fun _ => plain.int _)
  · exact typed (.bind fun _ => .bind fun _ => .bind fun _ => .ok (plain.int _))
  · unfold gammaLevel
    split
    · exact .error
    · split
      · exact .ok (plain.int _)
      · exact .error
  · exact typed (.map fun _ => plain.int _)
  · exact typed (.map fun _ => plain.int _)

end Results

end LedSketch.Native
