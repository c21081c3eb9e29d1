import LedSketch.Proofs.Pattern.Flat
import Mathlib.Data.List.Basic

namespace LedSketch.Pattern

/-!
# The pieces of a text

The matches of a pattern and the characters between them make up the whole text, and
groups of different numbers have no line end in common.
-/

namespace Match

variable {first last : Cursor} {group : Group} {groups : List Group}

/-- The latest group of a number is the one that counts. -/
theorem group_cons (number : Nat) :
    (Match.mk first last (group :: groups)).group number =
      if group.number = number then group.text
      else (Match.mk first last groups).group number := by
  unfold Match.group Match.group?
  by_cases same : group.number = number <;> simp [same]

theorem flatMap_group_cons
    {numbers : List Nat}
    (absent : group.number ∉ numbers) :
    numbers.flatMap (Match.mk first last (group :: groups)).group =
      numbers.flatMap (Match.mk first last groups).group := by
  apply List.flatMap_congr
  intro number member
  have different : group.number ≠ number := fun same => absent (same ▸ member)
  rw [group_cons, if_neg different]

/-- Groups of different numbers have at most the line ends of all groups. -/
theorem count_flatMap_group_le
    {numbers : List Nat}
    (distinct : numbers.Nodup) :
    (numbers.flatMap (Match.mk first last groups).group).count '\n' ≤ lineEndsIn groups := by
  induction groups generalizing numbers with
  | nil =>
      have nothing : numbers.flatMap (Match.mk first last []).group = [] :=
        List.flatMap_eq_nil_iff.mpr fun _ _ => rfl
      rw [nothing]
      exact Nat.le_refl _
  | cons group groups inductionHypothesis =>
      have total : lineEndsIn (group :: groups) = group.text.count '\n' + lineEndsIn groups := by
        simp [lineEndsIn]
      -- An older group of the same number no longer counts, so the number can be erased.
      by_cases member : group.number ∈ numbers
      · have reordered :=
          (List.perm_cons_erase member).flatMap_right
            (Match.mk first last (group :: groups)).group
        have own : (Match.mk first last (group :: groups)).group group.number = group.text := by
          rw [group_cons, if_pos rfl]
        have others := inductionHypothesis (distinct.erase group.number)
        rw [reordered.count_eq, List.flatMap_cons, own, List.count_append, total,
          flatMap_group_cons distinct.not_mem_erase]
        omega
      · have others := inductionHypothesis distinct
        rw [flatMap_group_cons member, total]
        omega

/-- What every match of a pattern is like. -/
structure Sound
    (pattern : Pattern)
    (found : Match) :
    Prop where
  passes : found.first.Passes found.last found.text
  notEmpty : found.text ≠ []
  flat : pattern.isFlat = true → lineEndsIn found.groups ≤ found.text.count '\n'

theorem Sound.count_groups_le
    {pattern : Pattern}
    {found : Match}
    (sound : Sound pattern found)
    (flat : pattern.isFlat = true)
    (numbers : List Nat)
    (distinct : numbers.Nodup) :
    (numbers.flatMap found.group).count '\n' ≤ found.text.count '\n' :=
  Nat.le_trans (count_flatMap_group_le distinct) (sound.flat flat)

end Match

/-- A match starts at its place and passes its text. -/
theorem matchAt?_sound
    {pattern : Pattern}
    {turns : Nat}
    {cursor : Cursor}
    {found : Match}
    (matched : pattern.matchAt? turns cursor = some found) :
    found.first = cursor ∧ found.Sound pattern := by
  obtain ⟨rfl, took, notEmpty⟩ := took_of_matchAt? matched
  exact ⟨rfl, took.passes, notEmpty, took.lineEndsIn_le⟩

/-- The text that a piece covers. -/
def Piece.text : Piece → List Char
  | .plain cursor => cursor.rest.take 1
  | .found matched => matched.text

/-- Whether a piece is what the pattern makes of its place. -/
def Piece.Sound (pattern : Pattern) : Piece → Prop
  | .plain _ => True
  | .found matched => matched.Sound pattern

/-- The pieces from a place on make up the rest of the text. -/
theorem piecesFrom_sound
    {pattern : Pattern}
    {turns count : Nat}
    {cursor : Cursor}
    (enough : cursor.rest.length ≤ count) :
    (piecesFrom pattern turns count cursor).flatMap Piece.text = cursor.rest ∧
      ∀ piece ∈ piecesFrom pattern turns count cursor, piece.Sound pattern := by
  induction count generalizing cursor with
  | zero =>
      have empty : cursor.rest = [] := List.eq_nil_of_length_eq_zero (Nat.le_zero.mp enough)
      rw [empty]
      simp [piecesFrom]
  | succ count inductionHypothesis =>
      unfold piecesFrom
      cases rest : cursor.rest with
      | nil => simp
      | cons c later =>
          rw [rest] at enough
          dsimp only
          cases matched : pattern.matchAt? turns cursor with
          | some found =>
              obtain ⟨sameFirst, sound⟩ := matchAt?_sound matched
              have split := sound.passes.rest
              rw [sameFirst, rest] at split
              have shorter : found.last.rest.length ≤ count := by
                have lengths := congrArg List.length split
                have taken := List.length_pos_iff.mpr sound.notEmpty
                simp only [List.length_cons, List.length_append] at lengths enough
                omega
              obtain ⟨covered, allSound⟩ := inductionHypothesis shorter
              refine ⟨?_, List.forall_mem_cons.mpr ⟨sound, allSound⟩⟩
              rw [List.flatMap_cons, covered, split]
              rfl
          | none =>
              have passes := Cursor.Passes.next rest
              have split := passes.rest
              rw [rest] at split
              have sameLater : cursor.next.rest = later := (List.cons.inj split).2.symm
              have shorter : cursor.next.rest.length ≤ count := by
                rw [sameLater]
                exact Nat.le_of_succ_le_succ enough
              obtain ⟨covered, allSound⟩ := inductionHypothesis shorter
              refine ⟨?_, List.forall_mem_cons.mpr ⟨trivial, allSound⟩⟩
              rw [List.flatMap_cons, covered, sameLater, Piece.text, rest]
              rfl

theorem pieces_sound
    (pattern : Pattern)
    (text : List Char) :
    (pattern.pieces text).flatMap Piece.text = text ∧
      ∀ piece ∈ pattern.pieces text, piece.Sound pattern :=
  piecesFrom_sound (Nat.le_refl _)

end LedSketch.Pattern
