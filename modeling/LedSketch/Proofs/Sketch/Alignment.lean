import LedSketch.Proofs.Pattern.Pieces
import LedSketch.Proofs.Sketch.Arguments
import LedSketch.Sketch.Lowering

namespace LedSketch.Sketch

/-!
# Line alignment

No replacement has more line ends than the match it replaces, and missing ones are added,
so every rule keeps every line where it is.
-/

open Pattern (Match Piece)

/-- Whether different groups of a match have at most its line ends together. -/
def BoundsGroups (found : Match) : Prop :=
  ∀ numbers : List Nat, numbers.Nodup →
    (numbers.flatMap found.group).count '\n' ≤ found.text.count '\n'

/-- Whether no replacement that a rule makes has more line ends than its match. -/
def Rule.Fits (rule : Rule) : Prop :=
  ∀ state found new,
    BoundsGroups found →
    rule.replacement.apply? state found = some new →
    new.count '\n' ≤ found.text.count '\n'

section Templates

/-- Whether a part brings no line end of its own. -/
def Part.isInline : Part → Bool
  | .text fixed => !fixed.toList.contains '\n'
  | .group _ => true

/-- The number of the group that a part stands for. -/
def Part.number? : Part → Option Nat
  | .text _ => none
  | .group number => some number

/-- All line ends of an expanded template are those of its groups. -/
theorem count_expand
    {parts : List Part}
    (inline : parts.all Part.isInline = true)
    (found : Match) :
    (parts.flatMap (Part.expand found)).count '\n' =
      ((parts.filterMap Part.number?).flatMap found.group).count '\n' := by
  induction parts with
  | nil => rfl
  | cons part rest inductionHypothesis =>
      rw [List.all_cons, Bool.and_eq_true] at inline
      obtain ⟨inlinePart, inlineRest⟩ := inline
      have same := inductionHypothesis inlineRest
      cases part with
      | text fixed =>
          have none : fixed.toList.count '\n' = 0 := by
            rw [List.count_eq_zero]
            simpa [Part.isInline] using inlinePart
          simp [List.filterMap_cons, Part.number?, Part.expand, none, same]
      | group number => simp [Part.number?, Part.expand, same]

/-- A template of different groups and fixed text without line ends fits. -/
theorem Rule.Fits.of_template
    {rule : Rule}
    {parts : List Part}
    (template : rule.replacement = .template parts)
    (inline : parts.all Part.isInline = true)
    (distinct : (parts.filterMap Part.number?).Nodup) :
    rule.Fits := by
  intro state found new bounded applied
  rw [template] at applied
  cases applied
  rw [count_expand inline]
  exact bounded _ distinct

end Templates

section Computed

variable {found : Match}

theorem Rule.Fits.of_computed
    {rule : Rule}
    {replace : Match → List Char}
    (computed : rule.replacement = .computed replace)
    (bound :
      ∀ found, BoundsGroups found → (replace found).count '\n' ≤ found.text.count '\n') :
    rule.Fits := by
  intro state found new bounded applied
  rw [computed] at applied
  cases applied
  exact bound found bounded

/-- What is left of a comment has no more line ends than it. -/
theorem count_stripComment_le (found : Match) :
    (Catalogue.stripComment found).count '\n' ≤ found.text.count '\n' := by
  unfold Catalogue.stripComment
  split
  · exact Nat.le_refl _
  · exact Nat.le_refl _
  · exact List.filter_sublist.count_le '\n'

/-- What is left of a declaration has no more line ends than it. -/
theorem count_eraseType_le (bounded : BoundsGroups found) :
    (Catalogue.eraseType found).count '\n' ≤ found.text.count '\n' := by
  have groups := bounded [1] (by decide)
  have keyword : "let ".toList.count '\n' = 0 := rfl
  simp only [List.flatMap_cons, List.flatMap_nil, List.append_nil] at groups
  unfold Catalogue.eraseType
  split
  · exact Nat.le_refl _
  · rw [List.count_append, keyword, Nat.zero_add]
    exact groups

/-- A constructed strip has no more line ends than its declaration. -/
theorem count_constructStrip_le (bounded : BoundsGroups found) :
    (Catalogue.constructStrip found).count '\n' ≤ found.text.count '\n' := by
  have groups := bounded [1, 2] (by decide)
  have keyword : "let ".toList.count '\n' = 0 := rfl
  have call : " = createStrip(".toList.count '\n' = 0 := rfl
  have close : ");".toList.count '\n' = 0 := rfl
  have inside :
      ((splitArguments (found.group 2)).take 3).flatten.Sublist (found.group 2) :=
    (List.take_sublist 3 _).flatten.trans (splitArguments_sublist _)
  have arguments := inside.count_le '\n'
  simp only [List.flatMap_cons, List.flatMap_nil, List.append_nil, List.count_append] at groups
  unfold Catalogue.constructStrip
  dsimp only
  split
  · exact Nat.le_refl _
  · simp only [List.count_append, keyword, call, close, count_joinArguments]
    omega

/-- A constructed button has no more line ends than its declaration. -/
theorem count_constructButton_le (bounded : BoundsGroups found) :
    (Catalogue.constructButton found).count '\n' ≤ found.text.count '\n' := by
  have groups := bounded [2, 4] (by decide)
  have keyword : "let ".toList.count '\n' = 0 := rfl
  have call : " = createButton(".toList.count '\n' = 0 := rfl
  have close : ");".toList.count '\n' = 0 := rfl
  simp only [List.flatMap_cons, List.flatMap_nil, List.append_nil, List.count_append] at groups
  unfold Catalogue.constructButton
  dsimp only
  split
  · exact Nat.le_refl _
  · simp only [List.count_append, keyword, call, close]
    omega

/-- An awaited delay has no more line ends than the delay. -/
theorem count_awaitDelay_le (bounded : BoundsGroups found) :
    (Catalogue.awaitDelay found).count '\n' ≤ found.text.count '\n' := by
  have groups := bounded [2] (by decide)
  have keyword : "await ".toList.count '\n' = 0 := rfl
  have parenthesis : ['('].count '\n' = 0 := rfl
  simp only [List.flatMap_cons, List.flatMap_nil, List.append_nil] at groups
  unfold Catalogue.awaitDelay
  split
  · exact Nat.le_refl _
  · simp only [List.count_append, keyword, parenthesis]
    omega

/-- A function header has the line ends of its groups at most, its parameters included. -/
theorem count_functionHeader_le
    {header : List Char}
    (bounded : BoundsGroups found)
    (made : Catalogue.functionHeader found = some header) :
    header.count '\n' ≤ found.text.count '\n' := by
  have groups := bounded [1, 2, 3, 4] (by decide)
  have keywords : "async function ".toList.count '\n' = 0 := rfl
  have opening : ['('].count '\n' = 0 := rfl
  have closing : [')'].count '\n' = 0 := rfl
  have parameters :=
    Nat.le_trans (count_filterMap_parameterName?_le (splitOn ',' (found.group 3)))
      ((splitOn_sublist ',' (found.group 3)).count_le '\n')
  simp only [List.flatMap_cons, List.flatMap_nil, List.append_nil, List.count_append] at groups
  unfold Catalogue.functionHeader at made
  dsimp only at made
  split at made
  · contradiction
  · cases made
    simp only [List.count_append, keywords, opening, closing, count_joinArguments]
    omega

/-- A wrapped header has no more line ends than the header. -/
theorem fits_functions : Catalogue.functions.Fits := by
  intro state found new bounded applied
  unfold Replacement.apply? at applied
  change (if state.depth = 0 then Catalogue.functionHeader found else none) = some new at applied
  split at applied
  · exact count_functionHeader_le bounded applied
  · contradiction

end Computed

/-- No rule makes more line ends than it takes. -/
theorem Catalogue.fits_of_mem
    {rule : Rule}
    (member : rule ∈ Catalogue.rules) :
    rule.Fits := by
  -- The cases come in the order in which the rules are applied.
  simp only [Catalogue.rules, List.mem_cons, List.not_mem_nil, or_false] at member
  rcases member with rfl | rfl | rfl | rfl | rfl | rfl | rfl | rfl | rfl | rfl | rfl | rfl |
    rfl | rfl | rfl | rfl | rfl | rfl | rfl | rfl | rfl
  · exact .of_computed rfl fun found _ => count_stripComment_le found
  · exact .of_template rfl rfl (by decide)
  · exact .of_template rfl rfl (by decide)
  · exact .of_template rfl rfl (by decide)
  · exact .of_template rfl rfl (by decide)
  · exact .of_template rfl rfl (by decide)
  · exact .of_template rfl rfl (by decide)
  · exact .of_template rfl rfl (by decide)
  · exact .of_template rfl rfl (by decide)
  · exact .of_template rfl rfl (by decide)
  · exact .of_computed rfl fun _ => count_eraseType_le
  · exact .of_template rfl rfl (by decide)
  · exact .of_template rfl rfl (by decide)
  · exact .of_computed rfl fun _ => count_constructStrip_le
  · exact .of_computed rfl fun _ => count_constructStrip_le
  · exact .of_computed rfl fun _ => count_constructButton_le
  · exact .of_template rfl rfl (by decide)
  · exact .of_computed rfl fun _ => count_awaitDelay_le
  · exact .of_template rfl rfl (by decide)
  · exact fits_functions
  · exact .of_template rfl rfl (by decide)

/-- No rule has a group inside of another one. -/
theorem Catalogue.isFlat_of_mem :
    ∀ rule ∈ Catalogue.rules, rule.pattern.isFlat = true := by
  decide

/-- The groups of a match have no more line ends than the match. -/
theorem boundsGroups_of_sound
    {rule : Rule}
    {found : Match}
    (member : rule ∈ Catalogue.rules)
    (sound : found.Sound rule.pattern) :
    BoundsGroups found :=
  sound.count_groups_le (Catalogue.isFlat_of_mem rule member)

/-- Replacing keeps all line ends when none is added. -/
theorem count_keepLines
    {old new : List Char}
    (fits : new.count '\n' ≤ old.count '\n') :
    (keepLines old new).count '\n' = old.count '\n' := by
  rw [keepLines, List.count_append, List.count_replicate_self]
  omega

/-- Whether a stretch of the text keeps its line ends. -/
def Segment.KeepsLines (segment : Segment) : Prop :=
  segment.after.count '\n' = segment.before.count '\n'

/-- A rule makes a segment of a match that covers it and keeps its line ends. -/
theorem Rule.segment_keepsLines
    {rule : Rule}
    {found : Match}
    (fits : rule.Fits)
    (bounded : BoundsGroups found)
    (state : Lexical) :
    (rule.segment state found).before = found.text ∧
      (rule.segment state found).KeepsLines := by
  unfold segment
  split
  · exact ⟨rfl, rfl⟩
  · split
    · exact ⟨rfl, rfl⟩
    · next new applied =>
        split
        · exact ⟨rfl, rfl⟩
        · exact ⟨rfl, count_keepLines (fits state found new bounded applied)⟩

/-- The segments of a text cover its pieces and keep their line ends. -/
theorem Rule.segmentsFrom_keepsLines
    {rule : Rule}
    {pieces : List Piece}
    (member : rule ∈ Catalogue.rules)
    (sound : ∀ piece ∈ pieces, piece.Sound rule.pattern)
    (state : Lexical) :
    (rule.segmentsFrom state pieces).flatMap Segment.before = pieces.flatMap Piece.text ∧
      ∀ segment ∈ rule.segmentsFrom state pieces, segment.KeepsLines := by
  induction pieces generalizing state with
  | nil => exact ⟨rfl, by simp [segmentsFrom]⟩
  | cons piece rest inductionHypothesis =>
      obtain ⟨soundPiece, soundRest⟩ := List.forall_mem_cons.mp sound
      cases piece with
      | plain cursor =>
          obtain ⟨covered, kept⟩ := inductionHypothesis soundRest
            (state.readMany 1 cursor.rest)
          unfold segmentsFrom
          rw [List.flatMap_cons, List.flatMap_cons, covered]
          exact ⟨rfl, List.forall_mem_cons.mpr ⟨rfl, kept⟩⟩
      | found found =>
          obtain ⟨covered, kept⟩ := inductionHypothesis soundRest
            (state.readMany (found.last.offset - found.first.offset) found.first.rest)
          obtain ⟨covers, keeps⟩ :=
            rule.segment_keepsLines (Catalogue.fits_of_mem member)
              (boundsGroups_of_sound member soundPiece) state
          unfold segmentsFrom
          rw [List.flatMap_cons, List.flatMap_cons, covered, covers]
          exact ⟨rfl, List.forall_mem_cons.mpr ⟨keeps, kept⟩⟩

/-- The segments of a text make it up, and each of them keeps its line ends. -/
theorem Rule.segments_keepLines
    {rule : Rule}
    (member : rule ∈ Catalogue.rules)
    (text : List Char) :
    (rule.segments text).flatMap Segment.before = text ∧
      ∀ segment ∈ rule.segments text, segment.KeepsLines := by
  obtain ⟨covered, sound⟩ := Pattern.pieces_sound rule.pattern text
  obtain ⟨sameText, kept⟩ := rule.segmentsFrom_keepsLines member sound .initial
  exact ⟨sameText.trans covered, kept⟩

/-- Stretches that keep their line ends keep those of the text. -/
theorem count_flatMap_after
    {segments : List Segment}
    (kept : ∀ segment ∈ segments, segment.KeepsLines) :
    (segments.flatMap Segment.after).count '\n' =
      (segments.flatMap Segment.before).count '\n' := by
  induction segments with
  | nil => rfl
  | cons segment rest inductionHypothesis =>
      obtain ⟨keeps, keptRest⟩ := List.forall_mem_cons.mp kept
      rw [List.flatMap_cons, List.flatMap_cons, List.count_append, List.count_append, keeps,
        inductionHypothesis keptRest]

/-- A rule keeps the number of line ends. -/
theorem Rule.count_apply
    {rule : Rule}
    (member : rule ∈ Catalogue.rules)
    (text : List Char) :
    (rule.apply text).1.count '\n' = text.count '\n' := by
  obtain ⟨sameText, kept⟩ := rule.segments_keepLines member text
  have counted := count_flatMap_after kept
  rw [sameText] at counted
  exact counted

/-- A rule without a replacement leaves a text as it is. -/
theorem Rule.apply_of_count_eq_zero
    {rule : Rule}
    (member : rule ∈ Catalogue.rules)
    {text : List Char}
    (nothing : (rule.apply text).2 = 0) :
    (rule.apply text).1 = text := by
  have kept : ∀ segment ∈ rule.segments text, segment.after = segment.before := by
    intro segment inSegments
    have notReplaced := List.countP_eq_zero.mp nothing segment inSegments
    cases segment with
    | kept text => rfl
    | replaced old new => exact absurd rfl notReplaced
  calc
    (rule.apply text).1 = (rule.segments text).flatMap Segment.before := List.flatMap_congr kept
    _ = text := (rule.segments_keepLines member text).1

/-- The last text is what is left of the text after one rule after the other. -/
theorem lastText_eq_foldl
    {rules : List Rule}
    (known : ∀ rule ∈ rules, rule ∈ Catalogue.rules)
    (text : List Char) :
    lastText text (applications rules text) =
      rules.foldl (fun text rule => (rule.apply text).1) text := by
  induction rules generalizing text with
  | nil => rfl
  | cons rule rest inductionHypothesis =>
      obtain ⟨member, knownRest⟩ := List.forall_mem_cons.mp known
      rw [List.foldl_cons, ← inductionHypothesis knownRest, applications]
      dsimp only
      split
      · next nothing => rw [rule.apply_of_count_eq_zero member nothing]
      · unfold lastText
        cases applications rest (rule.apply text).1 with
        | nil => rfl
        | cons application others => rw [List.getLast?_cons_cons, List.getLast?_cons]

/-- What every rule keeps of a text is kept by one rule after the other. -/
theorem lastText_keeps
    (holds : List Char → Prop)
    {rules : List Rule}
    (known : ∀ rule ∈ rules, rule ∈ Catalogue.rules)
    (keeps : ∀ rule ∈ Catalogue.rules, ∀ text, holds text → holds (rule.apply text).1)
    {text : List Char}
    (begins : holds text) :
    holds (lastText text (applications rules text)) := by
  rw [lastText_eq_foldl known]
  induction rules generalizing text with
  | nil => exact begins
  | cons rule rest inductionHypothesis =>
      obtain ⟨member, knownRest⟩ := List.forall_mem_cons.mp known
      exact inductionHypothesis knownRest (keeps rule member text begins)

/-- Rules one after the other keep the number of line ends. -/
theorem count_lastText
    {rules : List Rule}
    (known : ∀ rule ∈ rules, rule ∈ Catalogue.rules)
    (text : List Char) :
    (lastText text (applications rules text)).count '\n' = text.count '\n' := by
  refine lastText_keeps (fun next => next.count '\n' = text.count '\n') known ?_ rfl
  exact fun rule member next same => (rule.count_apply member next).trans same

/-- The line ends are kept when carriage returns before them are dropped. -/
theorem count_unifyLineEnds (source : List Char) :
    (unifyLineEnds source).count '\n' = source.count '\n' := by
  fun_induction unifyLineEnds source with
  | case1 rest inductionHypothesis => simp [inductionHypothesis]
  | case2 c rest notPair inductionHypothesis =>
      rw [List.count_cons, List.count_cons, inductionHypothesis]
  | case3 => rfl

/-- The lowered sketch has as many line ends as the source. -/
theorem count_lower (source : List Char) :
    (lower source).text.count '\n' = source.count '\n' :=
  (count_lastText (fun _ member => member) (unifyLineEnds source)).trans
    (count_unifyLineEnds source)

/-- There is one more line than there are line ends. -/
theorem length_splitOn_lineEnd (text : List Char) :
    (splitOn '\n' text).length = text.count '\n' + 1 := by
  induction text with
  | nil => rfl
  | cons c rest inductionHypothesis =>
      unfold splitOn
      cases stretches : splitOn '\n' rest with
      | nil =>
          rw [stretches] at inductionHypothesis
          contradiction
      | cons first others =>
          rw [stretches] at inductionHypothesis
          by_cases ends : c = '\n'
          · subst ends
            rw [List.count_cons_self, ← inductionHypothesis]
            rfl
          · rw [List.count_cons_of_ne ends, ← inductionHypothesis]
            simp [ends]

/--
Every rule keeps the number of line ends, and a character that it does not replace has as
many line ends before it as it had.  So a script has the lines of its sketch.
-/
theorem rules_keep_lines :
    (∀ rule ∈ Catalogue.rules, ∀ text,
      (rule.apply text).1.count '\n' = text.count '\n' ∧
        (rule.segments text).flatMap Segment.before = text ∧
        ∀ earlier later front back c,
          rule.segments text = earlier ++ .kept (front ++ c :: back) :: later →
          text =
              (earlier.flatMap Segment.before ++ front) ++
                c :: (back ++ later.flatMap Segment.before) ∧
            (rule.apply text).1 =
              (earlier.flatMap Segment.after ++ front) ++
                c :: (back ++ later.flatMap Segment.after) ∧
            (earlier.flatMap Segment.after ++ front).count '\n' =
              (earlier.flatMap Segment.before ++ front).count '\n') ∧
      ∀ source,
        (splitOn '\n' (lower source).text).length =
          (splitOn '\n' (unifyLineEnds source)).length := by
  constructor
  · intro rule member text
    obtain ⟨sameText, kept⟩ := rule.segments_keepLines member text
    refine ⟨rule.count_apply member text, sameText, ?_⟩
    intro earlier later front back c split
    rw [split] at sameText kept
    obtain ⟨keptEarlier, keptLater⟩ := List.forall_mem_append.mp kept
    refine ⟨?_, ?_, ?_⟩
    · rw [← sameText]
      simp [Segment.before]
    · unfold Rule.apply
      rw [split]
      simp [Segment.after]
    · rw [List.count_append, List.count_append, count_flatMap_after keptEarlier]
  · intro source
    rw [length_splitOn_lineEnd, length_splitOn_lineEnd]
    exact congrArg (· + 1) (count_lastText (fun _ member => member) (unifyLineEnds source))

end LedSketch.Sketch
