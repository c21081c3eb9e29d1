import LedSketch.Script.Scope

namespace LedSketch.Native

/-!
# The names a sketch finds

Native functions, native objects and constants.  A sketch can reach nothing else
of its surroundings.
-/

open Script

/-- The circle constant. -/
def pi : Float := Float.ofBits 0x400921fb54442d18

/-- Every predefined name with its value. -/
def bindings : Bindings :=
  Builtin.all.map (fun builtin => (builtin.name, .builtin builtin)) ++
    [("HIGH", .int 1), ("LOW", .int 0), ("PI", .float pi), ("DEC", .int 10),
      ("HEX", .int 16), ("OCT", .int 8), ("BIN", .int 2),
      ("Serial", .object .serial), ("NeoPixel", .object .neoPixel)]

end LedSketch.Native
