import LedSketch.Proofs.Script.Occurrence

namespace LedSketch.Script

/-!
# How statements are left

A statement can be left by a jump or by a return that it contains.  A loop inside the
statement takes the jumps that are made in it, and a switch takes those with `break`; a
return goes through all of them.
-/

namespace Enclosure

/-- The loops and switches around a part of a statement, with those around the statement. -/
def within (inner outer : Enclosure) : Enclosure :=
  ⟨inner.inLoop || outer.inLoop, inner.inSwitch || outer.inSwitch⟩

end Enclosure

/-- A part of a statement is a part of every body that the statement stands in. -/
theorem Stands.within
    {body : List Stmt}
    {outer inner : Enclosure}
    {whole part : Stmt}
    (standing : Stands body outer whole)
    (inside : Stands [whole] inner part) :
    Stands body (inner.within outer) part := by
  induction inside with
  | top member =>
      cases List.mem_singleton.mp member
      exact standing
  | block _ member inductionHypothesis => exact .block inductionHypothesis member
  | whenTrue _ inductionHypothesis => exact .whenTrue inductionHypothesis
  | whenFalse _ inductionHypothesis => exact .whenFalse inductionHypothesis
  | whileLoop _ inductionHypothesis => exact .whileLoop inductionHypothesis
  | doLoop _ inductionHypothesis => exact .doLoop inductionHypothesis
  | forLoop _ inductionHypothesis => exact .forLoop inductionHypothesis
  | case _ among member inductionHypothesis => exact .case inductionHypothesis among member

/-- The ways to leave a statement before its end. -/
inductive Exit where
  | broke
  | continued
  | returned
  deriving DecidableEq

/-- Whether one of the loops and switches around a statement takes its exit. -/
def Exit.takenIn (around : Enclosure) : Exit → Bool
  | .broke => around.inLoop || around.inSwitch
  | .continued => around.inLoop
  | .returned => false

namespace Stmt

/-- The exit that a statement makes by itself. -/
def exit? : Stmt → Option Exit
  | .returns .. => some .returned
  | .breaks _ => some .broke
  | .continues _ => some .continued
  | _ => none

/-- A statement contains the source of an exit, and nothing inside it takes the exit. -/
def Leaves
    (exit : Exit)
    (stmt : Stmt) :
    Prop :=
  ∃ around part,
    Stands [stmt] around part ∧ part.exit? = some exit ∧ exit.takenIn around = false

variable {exit : Exit} {stmt whole : Stmt}

theorem stands_self (stmt : Stmt) : Stands [stmt] .bare stmt :=
  .top (List.mem_singleton.mpr rfl)

theorem leaves_of_exit? (isSource : stmt.exit? = some exit) : stmt.Leaves exit := by
  refine ⟨.bare, stmt, stands_self stmt, isSource, ?_⟩
  cases exit <;> rfl

/-- A part is left together with the whole, if nothing between them takes the exit. -/
theorem Leaves.within
    {outer : Enclosure}
    (leaves : stmt.Leaves exit)
    (standing : Stands [whole] outer stmt)
    (untaken : exit.takenIn outer = false) :
    whole.Leaves exit := by
  obtain ⟨inner, part, inside, isSource, untakenInside⟩ := leaves
  refine ⟨inner.within outer, part, standing.within inside, isSource, ?_⟩
  unfold Exit.takenIn at *
  cases exit with
  | broke =>
      obtain ⟨noLoop, noSwitch⟩ := Bool.or_eq_false_iff.mp untaken
      obtain ⟨noLoopInside, noSwitchInside⟩ := Bool.or_eq_false_iff.mp untakenInside
      simp [Enclosure.within, noLoop, noSwitch, noLoopInside, noSwitchInside]
  | continued => exact Bool.or_eq_false_iff.mpr ⟨untakenInside, untaken⟩
  | returned => rfl

/-- The parts of a block and of a branch are within no loop and no switch of it. -/
theorem Leaves.plainPart
    (leaves : stmt.Leaves exit)
    (standing : Stands [whole] .bare stmt) :
    whole.Leaves exit :=
  leaves.within standing (by cases exit <;> rfl)

/-- A loop is left when its body returns. -/
theorem leaves_of_loop
    (leaves : exit = .returned ∧ stmt.Leaves exit)
    (standing : Stands [whole] Enclosure.bare.loop stmt) :
    whole.Leaves exit := by
  obtain ⟨rfl, leaves⟩ := leaves
  exact leaves.within standing rfl

/-- Some statement of a body has an exit. -/
def BodyLeaves
    (exit : Exit)
    (body : List Stmt) :
    Prop :=
  ∃ stmt ∈ body, stmt.Leaves exit

/-- Some case has an exit that its switch does not take. -/
def CasesLeave
    (exit : Exit)
    (cases : List SwitchCase) :
    Prop :=
  exit ≠ .broke ∧ ∃ case ∈ cases, BodyLeaves exit case.body

theorem BodyLeaves.block
    {body : List Stmt}
    (leaves : BodyLeaves exit body) :
    (Stmt.block body).Leaves exit := by
  obtain ⟨stmt, member, leaves⟩ := leaves
  exact leaves.plainPart (.block (stands_self _) member)

theorem CasesLeave.mono
    {cases all : List SwitchCase}
    (leave : CasesLeave exit cases)
    (among : cases ⊆ all) :
    CasesLeave exit all := by
  obtain ⟨stays, case, member, leaves⟩ := leave
  exact ⟨stays, case, among member, leaves⟩

theorem CasesLeave.switch
    {cases : List SwitchCase}
    (leave : CasesLeave exit cases)
    (discriminant : Expr) :
    (Stmt.switch discriminant cases).Leaves exit := by
  obtain ⟨stays, case, among, stmt, member, leaves⟩ := leave
  refine leaves.within (.case (stands_self _) among member) ?_
  cases exit with
  | broke => contradiction
  | continued | returned => rfl

end Stmt

end LedSketch.Script
