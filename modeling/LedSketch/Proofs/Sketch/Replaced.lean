import LedSketch.Proofs.Pattern.Taken
import LedSketch.Proofs.Sketch.Alignment
import LedSketch.Proofs.Sketch.Comments

namespace LedSketch.Sketch

/-!
# Replaced matches

A stretch that a rule replaces is a match that begins outside of literals, and the rule made
its replacement from it.
-/

open Pattern (Match Piece)
open Script.Lexeme

/-- The replacement of a match that stands in front of the rest of a text. -/
structure Rule.Replaces
    (rule : Rule)
    (turns : Nat)
    (state : Lexical)
    (found : Match)
    (new behind : List Char) :
    Prop where
  matched : rule.pattern.matchAt? turns found.first = some found
  rest : found.first.rest = found.text ++ behind
  notLiteral : state.inLiteral = false
  made :
    ∃ made,
      rule.replacement.apply? state found = some made ∧ made ≠ found.text ∧
        new = keepLines found.text made

section

variable {rule : Rule} {state : Lexical} {earlier later : List Segment} {old new : List Char}

theorem Rule.segment_eq_replaced
    {found : Match}
    (replaced : rule.segment state found = .replaced old new) :
    old = found.text ∧ state.inLiteral = false ∧
      ∃ made,
        rule.replacement.apply? state found = some made ∧ made ≠ found.text ∧
          new = keepLines found.text made := by
  unfold segment at replaced
  split at replaced
  · contradiction
  · next notLiteral =>
      split at replaced
      · contradiction
      · next made applied =>
          split at replaced
          · contradiction
          · next changed =>
              cases replaced
              exact ⟨rfl, Bool.eq_false_iff.mpr notLiteral, made, applied, changed, rfl⟩

theorem Rule.replaces_of_segmentsFrom
    (member : rule ∈ Catalogue.rules)
    {turns count : Nat}
    {cursor : Cursor}
    (enough : cursor.rest.length ≤ count)
    (split :
      rule.segmentsFrom state (rule.pattern.piecesFrom turns count cursor) =
        earlier ++ .replaced old new :: later) :
    ∃ found,
      found.text = old ∧
        rule.Replaces turns
          (state.readMany (earlier.flatMap Segment.before).length cursor.rest) found new
          (later.flatMap Segment.before) := by
  induction count generalizing state cursor earlier with
  | zero => cases earlier <;> contradiction
  | succ count inductionHypothesis =>
      obtain ⟨before, rest, offset⟩ := cursor
      rcases rest with _ | ⟨c, rest⟩
      · cases earlier <;> contradiction
      rw [List.length_cons] at enough
      cases isMatch : rule.pattern.matchAt? turns ⟨before, c :: rest, offset⟩ with
      | some found =>
          obtain ⟨isFirst, sound⟩ := Pattern.matchAt?_sound isMatch
          have whole : c :: rest = found.text ++ found.last.rest := by
            have same := sound.passes.rest
            rwa [isFirst] at same
          have taken : found.last.offset - found.first.offset = found.text.length := by
            rw [sound.passes.offset, Nat.add_sub_cancel_left]
          have shorter : found.last.rest.length ≤ count := by
            have lengths := congrArg List.length whole
            have notEmpty := List.length_pos_iff.mpr sound.notEmpty
            simp only [List.length_cons, List.length_append] at lengths
            omega
          simp only [Pattern.piecesFrom, isMatch, segmentsFrom] at split
          rcases earlier with _ | ⟨first, earlier⟩
          · obtain ⟨replaced, isLater⟩ := List.cons_eq_cons.mp split
            obtain ⟨rfl, notLiteral, made⟩ := segment_eq_replaced replaced
            obtain ⟨covered, soundPieces⟩ := @Pattern.piecesFrom_sound rule.pattern
              turns count found.last shorter
            obtain ⟨sameText, _⟩ := rule.segmentsFrom_keepsLines member soundPieces
              (state.readMany (found.last.offset - found.first.offset) found.first.rest)
            rw [isLater, covered] at sameText
            refine ⟨found, rfl, isFirst ▸ isMatch, ?_, notLiteral, made⟩
            rw [isFirst, sameText]
            exact whole
          · obtain ⟨isSegment, onward⟩ := List.cons_eq_cons.mp split
            obtain ⟨covers, _⟩ := rule.segment_keepsLines (Catalogue.fits_of_mem member)
              (boundsGroups_of_sound member sound) state
            obtain ⟨other, isText, replaces⟩ := inductionHypothesis shorter onward
            refine ⟨other, isText, ?_⟩
            rw [taken, sound.passes.rest] at replaces
            rw [List.flatMap_cons, ← isSegment, covers, List.length_append, whole,
              Lexical.readMany_append]
            exact replaces
      | none =>
          simp only [Pattern.piecesFrom, isMatch, segmentsFrom] at split
          rcases earlier with _ | ⟨first, earlier⟩
          · cases split
          · obtain ⟨isSegment, onward⟩ := List.cons_eq_cons.mp split
            obtain ⟨other, isText, replaces⟩ :=
              inductionHypothesis (Nat.le_of_succ_le_succ enough) onward
            refine ⟨other, isText, ?_⟩
            have one : (Segment.before first).length = 1 := by
              rw [← isSegment]
              rfl
            rw [List.flatMap_cons, List.length_append, one, Lexical.readMany_add]
            exact replaces

/-- What a rule replaces is a match that begins outside of literals. -/
theorem Rule.replaces_of_segments
    (member : rule ∈ Catalogue.rules)
    {text : List Char}
    (split : rule.segments text = earlier ++ .replaced old new :: later) :
    ∃ found,
      found.text = old ∧
        rule.Replaces text.length
          (Lexical.atOffset text (earlier.flatMap Segment.before).length) found new
          (later.flatMap Segment.before) :=
  @replaces_of_segmentsFrom rule .initial earlier later old new member text.length text.length
    (.start text) le_rfl split

/-- No stretch of a text is empty. -/
theorem Rule.before_ne_nil
    (member : rule ∈ Catalogue.rules)
    {turns count : Nat}
    {cursor : Cursor}
    {segment : Segment}
    (inSegments :
      segment ∈ rule.segmentsFrom state (rule.pattern.piecesFrom turns count cursor)) :
    segment.before ≠ [] := by
  induction count generalizing state cursor with
  | zero => contradiction
  | succ count inductionHypothesis =>
      obtain ⟨before, rest, offset⟩ := cursor
      rcases rest with _ | ⟨c, rest⟩
      · contradiction
      cases isMatch : rule.pattern.matchAt? turns ⟨before, c :: rest, offset⟩ with
      | some found =>
          obtain ⟨-, sound⟩ := Pattern.matchAt?_sound isMatch
          simp only [Pattern.piecesFrom, isMatch, segmentsFrom] at inSegments
          rcases List.mem_cons.mp inSegments with rfl | inRest
          · obtain ⟨covers, _⟩ := rule.segment_keepsLines (Catalogue.fits_of_mem member)
              (boundsGroups_of_sound member sound) state
            rw [covers]
            exact sound.notEmpty
          · exact inductionHypothesis inRest
      | none =>
          simp only [Pattern.piecesFrom, isMatch, segmentsFrom] at inSegments
          rcases List.mem_cons.mp inSegments with rfl | inRest
          · exact List.cons_ne_nil c []
          · exact inductionHypothesis inRest

end

namespace Catalogue

section Comments

variable {turns : Nat} {state : Lexical} {found : Match} {new behind : List Char}

/-- A text in which no comment ends has no mark that ends one. -/
theorem not_infix_of_commentBody?
    {text : List Char}
    (noEnd : commentBody? text = none) :
    ¬ ['*', '/'] <:+: text := by
  fun_induction commentBody? text with
  | case1 => simp
  | case2 => contradiction
  | case3 c rest notEnd inductionHypothesis =>
      rw [List.infix_cons_iff, not_or]
      refine ⟨fun begins => ?_, inductionHypothesis (by simpa using noEnd)⟩
      obtain ⟨rfl, behind, rfl⟩ := List.cons_prefix_cons.mp begins
      exact notEnd behind rfl rfl

theorem takes_mark
    {wanted : Char}
    {passed : List Char}
    {taken : List (Nat × List Char)}
    (takes : Pattern.Takes (Vocabulary.mark wanted) passed taken) :
    passed = [wanted] := by
  obtain ⟨-, c, accepted, rfl⟩ := takes
  rw [of_decide_eq_true accepted]

/-- A match of the pattern is a line comment, a block comment or a literal. -/
theorem text_of_takes
    {passed : List Char}
    {taken : List (Nat × List Char)}
    (takes : Pattern.Takes comments.pattern passed taken) :
    (∃ body, passed = '/' :: '/' :: body) ∨
      (∃ body, passed = '/' :: '*' :: (body ++ ['*', '/'])) ∨
      passed.head? = some '"' ∨ passed.head? = some '\'' := by
  rw [comments_pattern] at takes
  rcases takes with isLine | isBlock | isText | isCharacter
  · obtain ⟨_, body, _, _, ⟨_, _, _, _, slash, other, rfl, -⟩, -, rfl, -⟩ := isLine
    rw [takes_mark slash, takes_mark other]
    exact .inl ⟨body, rfl⟩
  · obtain ⟨_, _, _, _, ⟨_, _, _, _, slash, star, rfl, -⟩, inner, rfl, -⟩ := isBlock
    obtain ⟨body, _, _, _, -, closing, rfl, -⟩ := inner
    have marks : Pattern.Takes (.seq (Vocabulary.mark '*') (Vocabulary.mark '/')) _ _ := closing
    obtain ⟨_, _, _, _, lastStar, lastSlash, rfl, -⟩ := marks
    rw [takes_mark slash, takes_mark star, takes_mark lastStar, takes_mark lastSlash]
    exact .inr (.inl ⟨body, rfl⟩)
  · obtain ⟨_, _, _, _, quote, -, rfl, -⟩ := isText
    rw [takes_mark quote]
    exact .inr (.inr (.inl rfl))
  · obtain ⟨_, _, _, _, quote, -, rfl, -⟩ := isCharacter
    rw [takes_mark quote]
    exact .inr (.inr (.inr rfl))

/-- There is one match at a place, so it ends where a match there is known to end. -/
theorem eq_of_matchedUpTo
    (matched : comments.pattern.matchAt? turns found.first = some found)
    (rest : found.first.rest = found.text ++ behind)
    {skipped other : List Char}
    (whole : found.text ++ behind = skipped ++ other)
    (upTo : MatchedUpTo turns ⟨found.first.before, skipped ++ other, found.first.offset⟩ other) :
    found.text = skipped ∧ behind = other := by
  have isBehind : found.text ++ found.last.rest = found.text ++ behind :=
    (Pattern.matchAt?_sound matched).2.passes.rest.symm.trans rest
  obtain ⟨same, isMatch, isOther⟩ := upTo
  rw [← whole, ← rest] at isMatch
  obtain rfl : found = same := Option.some.inj (matched.symm.trans isMatch)
  obtain rfl : behind = other := (List.append_cancel_left isBehind).symm.trans isOther
  exact ⟨List.append_cancel_right whole, rfl⟩

/-- What is stripped begins with a slash, since literals are left as they are. -/
theorem slash_of_stripped
    (takes : Pattern.Takes comments.pattern found.text (found.groups.map Pattern.Group.numbered))
    (changed : stripComment found ≠ found.text) :
    found.text.head? = some '/' := by
  rcases text_of_takes takes with ⟨body, isText⟩ | ⟨body, isText⟩ | quoted
  · rw [isText, List.head?_cons]
  · rw [isText, List.head?_cons]
  · have same : stripComment found = found.text := by
      rcases quoted with isQuote | isQuote <;>
        · obtain ⟨more, isText⟩ := List.head?_eq_some_iff.mp isQuote
          simp [stripComment, isText]
    exact absurd same changed

/-- Of what is no literal line ends are left. -/
theorem eq_lineEnd_of_mem_stripped
    (slash : found.text.head? = some '/') :
    ∀ c ∈ keepLines found.text (stripComment found), c = '\n' := by
  obtain ⟨more, isText⟩ := List.head?_eq_some_iff.mp slash
  have isFilter : stripComment found = found.text.filter (· = '\n') := by
    simp [stripComment, isText]
  intro c member
  rw [keepLines, isFilter] at member
  rcases List.mem_append.mp member with kept | added
  · simpa using (List.mem_filter.mp kept).2
  · exact List.eq_of_mem_replicate added

/-- Outside of comments what is stripped is one comment, and line ends are left of it. -/
theorem trivia_of_replaces
    (replaces : comments.Replaces turns state found new behind)
    (enough : (found.text ++ behind).length ≤ turns) :
    Trivia behind found.text ∧ found.text.head? = some '/' ∧ ∀ c ∈ new, c = '\n' := by
  obtain ⟨matched, rest, -, made, applied, changed, rfl⟩ := replaces
  cases applied
  have takes := Pattern.takes_of_matchAt? matched
  have slash := slash_of_stripped takes changed
  have comment : Trivia behind found.text := by
    rcases text_of_takes takes with ⟨body, isText⟩ | ⟨body, isText⟩ | quoted
    · obtain ⟨onLine, other, split, -, quiet, ends⟩ :=
        Script.span_cases (fun c => decide (c ≠ '\n')) (body ++ behind)
      have noLineEnd : '\n' ∉ onLine := fun member => by simpa using quiet _ member
      have whole : found.text ++ behind = '/' :: '/' :: onLine ++ other := by simp [isText, split]
      rw [whole] at enough
      obtain ⟨isComment, rfl⟩ := eq_of_matchedUpTo matched rest whole
        (matchedUpTo_line noLineEnd ends (by simp at enough; omega))
      rw [isComment]
      exact .line noLineEnd ends
    · have closing : ['*', '/'] <:+: body ++ ['*', '/'] ++ behind := ⟨body, behind, rfl⟩
      cases inside : commentBody? (body ++ ['*', '/'] ++ behind) with
      | none => exact absurd closing (not_infix_of_commentBody? inside)
      | some read =>
          obtain ⟨first, other⟩ := read
          obtain ⟨closed, split⟩ := commentBody?_eq_some_iff.mp inside
          have whole : found.text ++ behind = '/' :: '*' :: (first ++ ['*', '/']) ++ other := by
            simpa [isText] using split
          rw [whole] at enough
          have upTo := @matchedUpTo_block turns found.first.before found.first.offset first closed
            other (by simp at enough; omega)
          obtain ⟨isComment, rfl⟩ := eq_of_matchedUpTo matched rest whole (by simpa using upTo)
          rw [isComment]
          exact .block closed
    · rw [slash] at quoted
      exact absurd quoted (by decide)
  exact ⟨comment, slash, eq_lineEnd_of_mem_stripped slash⟩

/-- A comment that is stripped and closes no other is a line comment, which ends with its line. -/
theorem ends_of_stripped
    (replaces : comments.Replaces turns state found new behind)
    (enough : (found.text ++ behind).length ≤ turns)
    (leavesOpen : ¬ ['*', '/'] <:+: found.text) :
    Script.StopsAt (· ≠ '\n') behind := by
  obtain ⟨trivia, slash, -⟩ := trivia_of_replaces replaces enough
  generalize found.text = stripped at trivia slash leavesOpen
  cases trivia with
  | blank isBlank =>
      cases slash
      contradiction
  | line noLineEnd ends => exact ends
  | @block body closed => exact absurd ⟨'/' :: '*' :: body, [], by simp⟩ leavesOpen

end Comments

end Catalogue

end LedSketch.Sketch
