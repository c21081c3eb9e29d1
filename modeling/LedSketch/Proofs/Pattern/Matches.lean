import LedSketch.Proofs.Pattern.Pieces

namespace LedSketch.Pattern

/-!
# The matches of a text

Every match is found at a place of the text, behind the matches in front of it.
-/

/-- The match of a piece, if it is one. -/
def Piece.match? : Piece → Option Match
  | .plain _ => none
  | .found matched => some matched

/-- The matches of a text from a place on. -/
def matchesFrom
    (pattern : Pattern)
    (turns count : Nat)
    (cursor : Cursor) :
    List Match :=
  (piecesFrom pattern turns count cursor).filterMap Piece.match?

theorem allMatches_eq_matchesFrom
    (pattern : Pattern)
    (text : List Char) :
    pattern.allMatches text = pattern.matchesFrom text.length text.length (.start text) :=
  rfl

section

variable {pattern : Pattern} {turns count : Nat} {cursor : Cursor} {found : Match}

/-- A match from a place on is the one at a place that comes later. -/
theorem passes_of_mem_matchesFrom (member : found ∈ pattern.matchesFrom turns count cursor) :
    pattern.matchAt? turns found.first = some found ∧
      ∃ between, cursor.Passes found.first between := by
  induction count generalizing cursor with
  | zero => contradiction
  | succ count inductionHypothesis =>
      unfold matchesFrom piecesFrom at member
      cases rest : cursor.rest with
      | nil => simp [rest] at member
      | cons c later =>
          cases matched : pattern.matchAt? turns cursor with
          | some here =>
              obtain ⟨isFirst, sound⟩ := matchAt?_sound matched
              simp only [rest, matched, List.filterMap_cons, Piece.match?] at member
              rcases List.mem_cons.mp member with rfl | onward
              · rw [isFirst]
                exact ⟨matched, [], .refl cursor⟩
              · obtain ⟨isMatch, between, passes⟩ := inductionHypothesis onward
                exact ⟨isMatch, _, (isFirst ▸ sound.passes).trans passes⟩
          | none =>
              simp only [rest, matched, List.filterMap_cons, Piece.match?] at member
              obtain ⟨isMatch, between, passes⟩ := inductionHypothesis member
              exact ⟨isMatch, _, (Cursor.Passes.next rest).trans passes⟩

/-- Every match ends before the next one begins. -/
theorem pairwise_matchesFrom :
    (pattern.matchesFrom turns count cursor).Pairwise fun earlier later =>
      earlier.last.offset ≤ later.first.offset := by
  induction count generalizing cursor with
  | zero => exact .nil
  | succ count inductionHypothesis =>
      unfold matchesFrom piecesFrom
      cases cursor.rest with
      | nil => exact .nil
      | cons c later =>
          cases matched : pattern.matchAt? turns cursor with
          | some here =>
              refine List.pairwise_cons.mpr ⟨fun found member => ?_, inductionHypothesis⟩
              obtain ⟨-, between, passes⟩ := passes_of_mem_matchesFrom member
              rw [passes.offset]
              exact Nat.le_add_right _ _
          | none => exact inductionHypothesis

end

section

variable {pattern : Pattern} {text : List Char}

/-- A match of a text stands in it at its offset. -/
theorem stands_of_mem_allMatches
    {found : Match}
    (member : found ∈ pattern.allMatches text) :
    found.text ≠ [] ∧
      Takes pattern found.text (found.groups.map Group.numbered) ∧
      ∃ earlier,
        text = earlier ++ (found.text ++ found.last.rest) ∧
          found.first.offset = earlier.length := by
  rw [allMatches_eq_matchesFrom] at member
  obtain ⟨matched, earlier, passes⟩ := passes_of_mem_matchesFrom member
  obtain ⟨-, sound⟩ := matchAt?_sound matched
  refine ⟨sound.notEmpty, takes_of_matchAt? matched, earlier, ?_, ?_⟩
  · rw [← sound.passes.rest]
    exact passes.rest
  · exact passes.offset.trans (Nat.zero_add _)

/-- The matches of a text come in the order of their places. -/
theorem pairwise_allMatches :
    (pattern.allMatches text).Pairwise fun earlier later =>
      earlier.first.offset < later.first.offset := by
  have apart : (pattern.allMatches text).Pairwise fun earlier later =>
      earlier.last.offset ≤ later.first.offset := by
    rw [allMatches_eq_matchesFrom]
    exact pairwise_matchesFrom
  refine apart.imp_of_mem fun {earlier later} isEarlier _ onward => ?_
  rw [allMatches_eq_matchesFrom] at isEarlier
  obtain ⟨-, sound⟩ := matchAt?_sound (passes_of_mem_matchesFrom isEarlier).1
  have notEmpty := List.length_pos_iff.mpr sound.notEmpty
  have ends := sound.passes.offset
  omega

end

end LedSketch.Pattern
