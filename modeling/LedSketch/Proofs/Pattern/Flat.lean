import LedSketch.Proofs.Pattern.Taken

namespace LedSketch

/-!
# Groups side by side

Where no group is inside of another one, the groups of a run together have at most the line
ends of the text that it passes.
-/

/-- How many line ends some groups have together. -/
def lineEndsIn (groups : List Group) : Nat := (groups.flatMap Group.text).count '\n'

namespace Pattern

/-- Whether a pattern remembers nothing. -/
def isGroupless : Pattern → Bool
  | .seq first second => first.isGroupless && second.isGroupless
  | .either first second => first.isGroupless && second.isGroupless
  | .many _ body => body.isGroupless
  | .group _ _ => false
  | _ => true

/-- Whether no group of a pattern is inside of another one. -/
def isFlat : Pattern → Bool
  | .seq first second => first.isFlat && second.isFlat
  | .either first second => first.isFlat && second.isFlat
  | .many _ body => body.isFlat
  | .group _ body => body.isGroupless
  | _ => true

theorem hasGroup_of_isGroupless
    {pattern : Pattern}
    (groupless : pattern.isGroupless = true)
    (number : Nat) :
    pattern.hasGroup number = false := by
  induction pattern with
  | seq first second ofFirst ofSecond | either first second ofFirst ofSecond =>
      simp only [isGroupless, Bool.and_eq_true] at groupless
      rw [hasGroup, ofFirst groupless.1, ofSecond groupless.2]
      rfl
  | many appetite body ofBody => exact ofBody groupless
  | group other body => contradiction
  | _ => rfl

namespace Takes

variable {pattern : Pattern} {passed : List Char} {taken : List (Nat × List Char)}

theorem eq_nil_of_isGroupless
    (takes : Takes pattern passed taken)
    (groupless : pattern.isGroupless = true) :
    taken = [] := by
  rcases taken with _ | ⟨⟨number, text⟩, taken⟩
  · rfl
  · have has := takes.hasGroup List.mem_cons_self
    rw [hasGroup_of_isGroupless groupless number] at has
    contradiction

/-- Groups side by side have no line end in common. -/
theorem count_le
    (takes : Takes pattern passed taken)
    (flat : pattern.isFlat = true) :
    (taken.flatMap Prod.snd).count '\n' ≤ passed.count '\n' := by
  induction pattern generalizing passed taken with
  | nothing | wordEdge | lineStart | lineEnd =>
      obtain ⟨rfl, rfl⟩ := takes
      exact Nat.le_refl _
  | char accepts =>
      obtain ⟨rfl, -⟩ := takes
      exact Nat.zero_le _
  | seq first second ofFirst ofSecond =>
      obtain ⟨front, back, earlier, later, takesFront, takesBack, rfl, rfl⟩ := takes
      simp only [isFlat, Bool.and_eq_true] at flat
      have boundFront := ofFirst takesFront flat.1
      have boundBack := ofSecond takesBack flat.2
      rw [List.flatMap_append, List.count_append, List.count_append]
      omega
  | either first second ofFirst ofSecond =>
      simp only [isFlat, Bool.and_eq_true] at flat
      rcases takes with takes | takes
      · exact ofFirst takes flat.1
      · exact ofSecond takes flat.2
  | many appetite body ofBody =>
      obtain ⟨turns, takesAll, rfl, rfl⟩ := takes
      induction turns with
      | nil => exact Nat.le_refl _
      | cons turn turns inductionHypothesis =>
          obtain ⟨takesTurn, takesOthers⟩ := List.forall_mem_cons.mp takesAll
          have boundTurn := ofBody takesTurn flat
          have boundOthers := inductionHypothesis takesOthers
          rw [List.reverse_cons, List.flatMap_append, List.flatMap_append, List.flatMap_singleton,
            List.flatMap_cons, List.count_append, List.count_append]
          omega
  | group number body =>
      obtain ⟨inside, takesBody, rfl⟩ := takes
      obtain rfl := takesBody.eq_nil_of_isGroupless flat
      exact Nat.le_of_eq (by rw [List.flatMap_singleton])

end Takes

/-- The groups of a run have at most the line ends of the text that it passes. -/
theorem Took.lineEndsIn_le
    {pattern : Pattern}
    {progress after : Progress}
    {passed : List Char}
    {remembered : List Group}
    (took : Took pattern progress after passed remembered)
    (flat : pattern.isFlat = true) :
    lineEndsIn remembered ≤ passed.count '\n' := by
  have bound := took.takes.count_le flat
  rw [List.flatMap_map] at bound
  exact bound

end Pattern

end LedSketch
