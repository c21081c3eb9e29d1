import LedSketch.Script.Syntax

namespace LedSketch.Script

/-!
# Rearranged programs

A program is rearranged by moving the functions that its body declares to other places of
the body.  All other statements keep their order, and the functions keep their lines.
-/

namespace Stmt

/-- The function that a statement declares. -/
def function? : Stmt → Option Function
  | .function line name parameters body => some ⟨line, name, parameters, body⟩
  | _ => none

/-- The functions that the statements of a body declare. -/
def functions (body : List Stmt) : List Function := body.filterMap function?

/-- The statements of a body that do not declare a function. -/
def actions (body : List Stmt) : List Stmt := body.filter fun stmt => stmt.function?.isNone

end Stmt

/-- The same program, but for the places of the functions that its body declares. -/
structure Program.Rearranged (program other : Program) : Prop where
  actions : Stmt.actions program.body = Stmt.actions other.body
  functions : (Stmt.functions program.body).Perm (Stmt.functions other.body)
  distinct : ((Stmt.functions program.body).map Function.name).Nodup

namespace Program.Rearranged

variable {program other : Program}

theorem refl (distinct : ((Stmt.functions program.body).map Function.name).Nodup) :
    program.Rearranged program :=
  ⟨rfl, .refl _, distinct⟩

/-- To move the functions back is to move functions. -/
theorem symm (rearranged : program.Rearranged other) : other.Rearranged program :=
  ⟨rearranged.actions.symm, rearranged.functions.symm,
    (rearranged.functions.map Function.name).nodup_iff.mp rearranged.distinct⟩

end Program.Rearranged

end LedSketch.Script
