namespace LedSketch.Sketch

/-!
# Notes

Shapes in a sketch that no rule could turn into script.  They do not stop a
run; they tell the author where to look.
-/

/-- What a note is about. -/
inductive Concern where
  | leftoverStrip
  | functionMacro
  | staticLocal
  | scopeOperator
  | unknownConstant
  | typeDeclaration
  deriving Repr, DecidableEq

/-- The message of a note. -/
def Concern.message : Concern → String
  | .leftoverStrip => "NeoPixel declaration not recognised"
  | .functionMacro => "function-like macro dropped"
  | .staticLocal => "static local is re-initialised on every call"
  | .scopeOperator => "scope operator left untranslated"
  | .unknownConstant => "unknown NeoPixel constant"
  | .typeDeclaration => "type declarations are not supported"

/-- A note about one line of a sketch, with the text it is about. -/
structure Note where
  line : Nat
  concern : Concern
  excerpt : String
  deriving Repr, DecidableEq

/-- A note as it is shown. -/
def Note.display (note : Note) : String :=
  "line " ++ toString note.line ++ ": " ++ note.concern.message ++ " (`" ++
    note.excerpt ++ "`)"

end LedSketch.Sketch
