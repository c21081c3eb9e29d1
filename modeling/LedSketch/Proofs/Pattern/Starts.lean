import LedSketch.Proofs.Pattern.Taken
import LedSketch.Sketch.Vocabulary
import Mathlib.Data.List.Basic
import Mathlib.Data.List.Induction

namespace LedSketch.Pattern

/-!
# Where a pattern has no match

A match begins with a character that its pattern may start with, and a pattern that cannot do
without some character has no match where that character is missing.
-/

/--
What holds of all members of a list is decided member by member.  For characters this comes
before the instance that goes over all of them there are.
-/
instance (priority := high) decidableForallMem
    {α : Type}
    (holds : α → Prop)
    [DecidablePred holds]
    (items : List α) :
    Decidable (∀ item ∈ items, holds item) :=
  List.decidableBAll holds items

/-- Whether a pattern may pass no text at all. -/
def mayBeEmpty : Pattern → Bool
  | .char _ => false
  | .seq first second => first.mayBeEmpty && second.mayBeEmpty
  | .either first second => first.mayBeEmpty || second.mayBeEmpty
  | .group _ body => body.mayBeEmpty
  | _ => true

/-- Whether a text that a pattern passes may begin with a character. -/
def mayStart : Pattern → Char → Bool
  | .char accepts, c => accepts c
  | .seq first second, c => first.mayStart c || (first.mayBeEmpty && second.mayStart c)
  | .either first second, c => first.mayStart c || second.mayStart c
  | .many _ body, c => body.mayStart c
  | .group _ body, c => body.mayStart c
  | _, _ => false

/-- Whether a text that a pattern passes may end with a character. -/
def mayEnd : Pattern → Char → Bool
  | .char accepts, c => accepts c
  | .seq first second, c => second.mayEnd c || (second.mayBeEmpty && first.mayEnd c)
  | .either first second, c => first.mayEnd c || second.mayEnd c
  | .many _ body, c => body.mayEnd c
  | .group _ body, c => body.mayEnd c
  | _, _ => false

namespace Takes

variable {pattern : Pattern} {c : Char} {rest : List Char} {taken : List (Nat × List Char)}

theorem mayBeEmpty (takes : Takes pattern [] taken) : pattern.mayBeEmpty = true := by
  induction pattern generalizing taken with
  | nothing | wordEdge | lineStart | lineEnd | many => rfl
  | char accepts =>
      obtain ⟨-, _, -, impossible⟩ := takes
      contradiction
  | seq first second ofFirst ofSecond =>
      obtain ⟨front, back, _, _, takesFront, takesBack, whole, -⟩ := takes
      obtain ⟨rfl, rfl⟩ := List.append_eq_nil_iff.mp whole.symm
      rw [Pattern.mayBeEmpty, ofFirst takesFront, ofSecond takesBack]
      rfl
  | either first second ofFirst ofSecond =>
      rw [Pattern.mayBeEmpty, Bool.or_eq_true]
      exact takes.imp ofFirst ofSecond
  | group number body ofBody =>
      obtain ⟨inside, takesBody, -⟩ := takes
      exact ofBody takesBody

theorem mayStart (takes : Takes pattern (c :: rest) taken) : pattern.mayStart c = true := by
  induction pattern generalizing rest taken with
  | nothing | wordEdge | lineStart | lineEnd =>
      obtain ⟨impossible, -⟩ := takes
      contradiction
  | char accepts =>
      obtain ⟨-, same, accepted, whole⟩ := takes
      cases whole
      exact accepted
  | seq first second ofFirst ofSecond =>
      obtain ⟨front, back, _, _, takesFront, takesBack, whole, -⟩ := takes
      rw [Pattern.mayStart, Bool.or_eq_true, Bool.and_eq_true]
      cases front with
      | nil =>
          rw [List.nil_append] at whole
          subst whole
          exact .inr ⟨takesFront.mayBeEmpty, ofSecond takesBack⟩
      | cons first front =>
          cases whole
          exact .inl (ofFirst takesFront)
  | either first second ofFirst ofSecond =>
      rw [Pattern.mayStart, Bool.or_eq_true]
      exact takes.imp ofFirst ofSecond
  | many appetite body ofBody =>
      obtain ⟨turns, takesAll, whole, -⟩ := takes
      -- The first turn that takes something begins the text.
      induction turns with
      | nil => contradiction
      | cons turn turns inductionHypothesis =>
          obtain ⟨takesTurn, takesOthers⟩ := List.forall_mem_cons.mp takesAll
          obtain ⟨passed, remembered⟩ := turn
          cases passed with
          | nil => exact inductionHypothesis takesOthers whole
          | cons first passed =>
              cases whole
              exact ofBody takesTurn
  | group number body ofBody =>
      obtain ⟨inside, takesBody, -⟩ := takes
      exact ofBody takesBody

theorem mayEnd (takes : Takes pattern (rest ++ [c]) taken) : pattern.mayEnd c = true := by
  induction pattern generalizing rest taken with
  | nothing | wordEdge | lineStart | lineEnd =>
      exact absurd takes.1 (List.append_ne_nil_of_right_ne_nil rest (List.cons_ne_nil c []))
  | char accepts =>
      obtain ⟨-, same, accepted, whole⟩ := takes
      obtain ⟨-, rfl⟩ := List.append_singleton_inj.mp (whole.trans (List.nil_append [same]).symm)
      exact accepted
  | seq first second ofFirst ofSecond =>
      obtain ⟨front, back, _, _, takesFront, takesBack, whole, -⟩ := takes
      rw [Pattern.mayEnd, Bool.or_eq_true, Bool.and_eq_true]
      rcases List.eq_nil_or_concat' back with rfl | ⟨back, last, rfl⟩
      · rw [List.append_nil] at whole
        subst whole
        exact .inr ⟨takesBack.mayBeEmpty, ofFirst takesFront⟩
      · rw [← List.append_assoc] at whole
        obtain ⟨-, rfl⟩ := List.append_singleton_inj.mp whole
        exact .inl (ofSecond takesBack)
  | either first second ofFirst ofSecond =>
      rw [Pattern.mayEnd, Bool.or_eq_true]
      exact takes.imp ofFirst ofSecond
  | many appetite body ofBody =>
      obtain ⟨turns, takesAll, whole, -⟩ := takes
      -- The last turn that takes something ends the text.
      induction turns using List.reverseRecOn with
      | nil => exact absurd whole (List.append_ne_nil_of_right_ne_nil rest (List.cons_ne_nil c []))
      | append_singleton turns turn inductionHypothesis =>
          obtain ⟨takesOthers, takesTurn⟩ := List.forall_mem_append.mp takesAll
          have takesTurn := takesTurn turn (List.mem_singleton_self turn)
          obtain ⟨passed, remembered⟩ := turn
          rw [List.flatMap_append, List.flatMap_singleton] at whole
          rcases List.eq_nil_or_concat' passed with rfl | ⟨passed, last, rfl⟩
          · exact inductionHypothesis takesOthers (whole.trans (List.append_nil _))
          · rw [← List.append_assoc] at whole
            obtain ⟨-, rfl⟩ := List.append_singleton_inj.mp whole
            exact ofBody takesTurn
  | group number body ofBody =>
      obtain ⟨inside, takesBody, -⟩ := takes
      exact ofBody takesBody

end Takes

theorem mayTake_of_mayStart
    {pattern : Pattern}
    {c : Char}
    (starts : pattern.mayStart c = true) :
    pattern.mayTake c = true := by
  induction pattern with
  | nothing | wordEdge | lineStart | lineEnd => contradiction
  | char accepts => exact starts
  | seq first second ofFirst ofSecond =>
      rw [mayStart, Bool.or_eq_true, Bool.and_eq_true] at starts
      rw [mayTake, Bool.or_eq_true]
      exact starts.imp ofFirst fun both => ofSecond both.2
  | either first second ofFirst ofSecond =>
      rw [mayStart, Bool.or_eq_true] at starts
      rw [mayTake, Bool.or_eq_true]
      exact starts.imp ofFirst ofSecond
  | many appetite body ofBody => exact ofBody starts
  | group number body ofBody => exact ofBody starts

/-- Whether each text that a pattern passes has a character of a class. -/
def Needs
    (wanted : Char → Bool)
    (pattern : Pattern) :
    Prop :=
  ∀ passed taken, Takes pattern passed taken → ∃ c ∈ passed, wanted c = true

namespace Needs

variable {wanted : Char → Bool} {first second : Pattern}

theorem char
    {accepts : Char → Bool}
    (isWanted : ∀ c, accepts c = true → wanted c = true) :
    Needs wanted (.char accepts) := by
  rintro passed taken ⟨-, c, accepted, rfl⟩
  exact ⟨c, List.mem_singleton_self c, isWanted c accepted⟩

theorem left (needs : Needs wanted first) : Needs wanted (.seq first second) := by
  rintro passed taken ⟨front, back, _, _, takesFront, -, rfl, -⟩
  obtain ⟨c, member, isWanted⟩ := needs _ _ takesFront
  exact ⟨c, List.mem_append_left _ member, isWanted⟩

theorem right (needs : Needs wanted second) : Needs wanted (.seq first second) := by
  rintro passed taken ⟨front, back, _, _, -, takesBack, rfl, -⟩
  obtain ⟨c, member, isWanted⟩ := needs _ _ takesBack
  exact ⟨c, List.mem_append_right _ member, isWanted⟩

theorem either
    (ofFirst : Needs wanted first)
    (ofSecond : Needs wanted second) :
    Needs wanted (.either first second) :=
  fun passed taken takes => takes.elim (ofFirst passed taken) (ofSecond passed taken)

/-- One part among others is enough. -/
theorem all
    {pattern : Pattern}
    {patterns : List Pattern}
    (needs : Needs wanted pattern)
    (member : pattern ∈ patterns) :
    Needs wanted (all patterns) := by
  intro passed taken takes
  induction patterns generalizing passed taken with
  | nil => contradiction
  | cons next patterns inductionHypothesis =>
      obtain ⟨front, back, _, _, takesNext, takesOthers, rfl, -⟩ := takes_all_cons takes
      rcases List.mem_cons.mp member with rfl | member
      · obtain ⟨c, inFront, isWanted⟩ := needs _ _ takesNext
        exact ⟨c, List.mem_append_left _ inFront, isWanted⟩
      · obtain ⟨c, inBack, isWanted⟩ := inductionHypothesis member _ _ takesOthers
        exact ⟨c, List.mem_append_right _ inBack, isWanted⟩

end Needs

section Unmatched

variable {pattern : Pattern} {turns : Nat} {cursor : Cursor}

theorem matchAt?_eq_none
    (nothing :
      ∀ passed taken behind,
        Takes pattern passed taken → passed ≠ [] → cursor.rest ≠ passed ++ behind) :
    pattern.matchAt? turns cursor = none := by
  cases matched : pattern.matchAt? turns cursor with
  | none => rfl
  | some found =>
      obtain ⟨-, took, notEmpty⟩ := took_of_matchAt? matched
      exact absurd took.passes.rest (nothing _ _ _ took.takes notEmpty)

/-- No match begins with a character that the pattern may not start with. -/
theorem matchAt?_eq_none_of_mayStart
    {c : Char}
    {rest : List Char}
    (text : cursor.rest = c :: rest)
    (refused : pattern.mayStart c = false) :
    pattern.matchAt? turns cursor = none := by
  refine matchAt?_eq_none fun passed taken behind takes notEmpty whole => ?_
  obtain ⟨first, passed, rfl⟩ := List.exists_cons_of_ne_nil notEmpty
  rw [text] at whole
  cases whole
  have starts := takes.mayStart
  rw [refused] at starts
  contradiction

/-- Nothing matches where all the characters that the pattern needs one of are missing. -/
theorem matchAt?_eq_none_of_needs
    {wanted : Char → Bool}
    (needs : Needs wanted pattern)
    (missing : ∀ c ∈ cursor.rest, wanted c = false) :
    pattern.matchAt? turns cursor = none := by
  refine matchAt?_eq_none fun passed taken behind takes _ whole => ?_
  obtain ⟨c, member, isWanted⟩ := needs passed taken takes
  rw [missing c (whole ▸ List.mem_append_left behind member)] at isWanted
  contradiction

end Unmatched

/-- Whether a pattern has no match that begins inside of a word, or between words. -/
def IsEdged (pattern : Pattern) : Prop :=
  ∀ turns cursor, atWordEdge Text.isWordChar cursor = false →
    pattern.matchAt? turns cursor = none

theorem IsEdged.wordEdge {onward : Pattern} : IsEdged (.seq .wordEdge onward) := by
  intro turns cursor inside
  simp [matchAt?, search, inside]

end LedSketch.Pattern
