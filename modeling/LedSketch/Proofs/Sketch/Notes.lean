import LedSketch.Proofs.Pattern.Matches
import LedSketch.Proofs.Sketch.Lines
import LedSketch.Proofs.Sketch.Parameters

namespace LedSketch.Sketch

/-!
# The places of notes

The notes of a sketch are what its surveys see, in the order of their lines.  The sort by lines
is stable, so the notes of one line stay in the order in which the surveys and their matches
come.
-/

open Pattern (Match)

section Sorting

variable {α : Type} (key : α → Nat)

/-- The order by a key is transitive. -/
theorem key_le_trans (first second third : α) :
    decide (key first ≤ key second) = true →
      decide (key second ≤ key third) = true → decide (key first ≤ key third) = true := by
  simpa using Nat.le_trans

/-- The order by a key is total. -/
theorem key_le_total (first second : α) :
    (decide (key first ≤ key second) || decide (key second ≤ key first)) = true := by
  simpa using Nat.le_total _ _

/-- Items in the order of their keys. -/
def sortedBy (items : List α) : List α :=
  items.mergeSort fun first second => key first ≤ key second

/-- What is sorted is in order. -/
theorem pairwise_sortedBy (items : List α) :
    (sortedBy key items).Pairwise fun first second => key first ≤ key second :=
  (List.pairwise_mergeSort (key_le_trans key) (key_le_total key) items).imp of_decide_eq_true

/-- Sorting by a key keeps the items of one key as they were. -/
theorem filter_sortedBy
    (value : Nat)
    (items : List α) :
    (sortedBy key items).filter (key · = value) = items.filter (key · = value) := by
  -- The items of one key are sorted already, so the sort has them in their order.
  have alike :
      (items.filter (key · = value)).Pairwise fun first second =>
        decide (key first ≤ key second) = true := by
    refine List.pairwise_filter.mpr
      (List.pairwise_of_forall fun first second isFirst isSecond => ?_)
    rw [of_decide_eq_true isFirst, of_decide_eq_true isSecond]
    exact decide_eq_true le_rfl
  have inSorted :=
    (List.sublist_mergeSort (key_le_trans key) (key_le_total key) alike
      List.filter_sublist).filter (key · = value)
  simp only [List.filter_filter, Bool.and_self] at inSorted
  have isPermuted : (sortedBy key items).Perm items := List.mergeSort_perm items _
  exact (inSorted.eq_of_length (isPermuted.filter _).length_eq.symm).symm

/-- Items sorted by a key keep their order where their keys are the same. -/
theorem pairwise_sortedBy_of_pairwise
    {relation : α → α → Prop}
    {items : List α}
    (ordered : items.Pairwise relation) :
    (sortedBy key items).Pairwise fun first second =>
      key first < key second ∨ key first = key second ∧ relation first second := by
  rw [List.pairwise_iff_forall_sublist] at ordered ⊢
  intro first second inOrder
  have sorted := List.pairwise_iff_forall_sublist.mp (pairwise_sortedBy key items) inOrder
  rcases Nat.lt_or_eq_of_le sorted with below | same
  · exact .inl below
  · have alike := inOrder.filter (key · = key first)
    have both : [first, second].filter (key · = key first) = [first, second] := by simp [same]
    rw [filter_sortedBy, both] at alike
    exact .inr ⟨same, ordered (alike.trans List.filter_sublist)⟩

end Sorting

/-- The text that a survey looks at. -/
def Survey.scanned
    (source : List Char)
    (survey : Survey) :
    List Char :=
  match survey.surveyed with
  | .sketch => unifyLineEnds source
  | .script => (lower source).text

/-- A match that a survey sees, and the place of the survey among all of them. -/
structure Sighting where
  rank : Nat
  survey : Survey
  found : Match

namespace Sighting

variable (source : List Char)

/-- The note about a sighting. -/
def note (sighting : Sighting) : Note where
  line := Survey.lineAt (sighting.survey.scanned source) sighting.found.first.offset
  concern := sighting.survey.concern
  excerpt := String.ofList (Text.trim sighting.found.text)

/-- Whether a survey does see a match. -/
structure Occurs (sighting : Sighting) : Prop where
  ranked : Survey.all[sighting.rank]? = some sighting.survey
  seen :
    sighting.found ∈ sighting.survey.pattern.allMatches (sighting.survey.scanned source)

/-- The order of the surveys, and then of the places. -/
def Precedes (first second : Sighting) : Prop :=
  first.rank < second.rank ∨
    first.rank = second.rank ∧ first.found.first.offset < second.found.first.offset

/-- The order of the lines, then of the surveys, and then of the places. -/
def ComesBefore (first second : Sighting) : Prop :=
  (first.note source).line < (second.note source).line ∨
    (first.note source).line = (second.note source).line ∧ first.Precedes second

/-- Where a sighting stands in its text, and what its note says of it. -/
structure Placed (sighting : Sighting) : Prop where
  stands :
    ∃ earlier later,
      sighting.survey.scanned source = earlier ++ (sighting.found.text ++ later) ∧
        sighting.found.first.offset = earlier.length ∧
        (sighting.note source).line = earlier.count '\n' + 1
  positive : 1 ≤ (sighting.note source).line
  bounded : (sighting.note source).line ≤ (lines source).length
  excerpt :
    ∃ line,
      (lines (sighting.survey.scanned source))[(sighting.note source).line - 1]? = some line ∧
        (sighting.note source).excerpt.toList <:+: line
  /-- The lines of the text are those of the sketch. -/
  aligned : (sighting.survey.scanned source).count '\n' = source.count '\n'

/-- All sightings, survey by survey. -/
def all : List Sighting :=
  Survey.all.zipIdx.flatMap fun ranked =>
    (ranked.1.pattern.allMatches (ranked.1.scanned source)).map (mk ranked.2 ranked.1)

/-- All sightings, line by line. -/
def byLine : List Sighting := sortedBy (fun sighting => (note source sighting).line) (all source)

variable {source}

/-- All sightings are those that occur. -/
theorem mem_all
    {sighting : Sighting} :
    sighting ∈ all source ↔ sighting.Occurs source := by
  simp only [all, List.mem_flatMap, List.mem_map, List.mem_zipIdx_iff_getElem?]
  constructor
  · rintro ⟨⟨survey, rank⟩, ranked, found, seen, rfl⟩
    exact ⟨ranked, seen⟩
  · rintro ⟨ranked, seen⟩
    exact ⟨(sighting.survey, sighting.rank), ranked, sighting.found, seen, rfl⟩

/-- The sightings are made check by check, each from the front. -/
theorem pairwise_all : (all source).Pairwise Precedes := by
  rw [all, List.pairwise_flatMap]
  constructor
  · rintro ⟨survey, rank⟩ -
    rw [List.pairwise_map]
    exact Pattern.pairwise_allMatches.imp fun onward => .inr ⟨rfl, onward⟩
  · have ranks : Survey.all.zipIdx.Pairwise fun first second => first.2 < second.2 := by
      rw [← List.pairwise_map (f := Prod.snd), List.zipIdx_map_snd]
      exact List.pairwise_lt_range'
    refine ranks.imp fun below first isFirst second isSecond => .inl ?_
    obtain ⟨_, -, rfl⟩ := List.mem_map.mp isFirst
    obtain ⟨_, -, rfl⟩ := List.mem_map.mp isSecond
    exact below

/-- The notes of all sightings are those that the checks make. -/
theorem map_note_all :
    (all source).map (note source) =
      Survey.all.flatMap (Survey.notes (unifyLineEnds source) (lower source).text) := by
  calc
    (all source).map (note source)
    _ = Survey.all.zipIdx.flatMap fun ranked =>
          Survey.notes (unifyLineEnds source) (lower source).text ranked.1 := by
      rw [all, List.map_flatMap]
      refine List.flatMap_congr fun ranked _ => ?_
      rw [List.map_map]
      rfl
    _ = (Survey.all.zipIdx.map Prod.fst).flatMap
          (Survey.notes (unifyLineEnds source) (lower source).text) := (List.flatMap_map ..).symm
    _ = Survey.all.flatMap (Survey.notes (unifyLineEnds source) (lower source).text) := by
      rw [List.zipIdx_map_fst]

/-- Sorted by line, they are the same sightings. -/
theorem mem_byLine
    {sighting : Sighting} :
    sighting ∈ byLine source ↔ sighting.Occurs source :=
  (List.mergeSort_perm _ _).mem_iff.trans mem_all

theorem pairwise_byLine : (byLine source).Pairwise (ComesBefore source) :=
  pairwise_sortedBy_of_pairwise _ pairwise_all

/-- The notes of a lowered sketch are those of the sightings by line. -/
theorem notes_lower : (lower source).notes = (byLine source).map (note source) := by
  change surveyNotes (unifyLineEnds source) (lower source).text = _
  rw [surveyNotes, ← map_note_all]
  exact (List.map_mergeSort (f := note source) fun _ _ _ _ => rfl).symm

end Sighting

/-- No survey looks past the end of a line. -/
theorem Survey.takesNone_of_mem :
    ∀ survey ∈ Survey.all, survey.pattern.takesNone ['\n'] = true := by
  decide

/-- The text that is scanned has as many line ends as the source. -/
theorem Survey.count_scanned
    (source : List Char)
    (survey : Survey) :
    (survey.scanned source).count '\n' = source.count '\n' := by
  unfold scanned
  split
  · exact count_unifyLineEnds source
  · exact count_lower source

theorem Survey.length_lines_scanned_le
    (source : List Char)
    (survey : Survey) :
    (lines (survey.scanned source)).length ≤ (lines source).length := by
  unfold scanned
  split
  · exact (length_lines_unifyLineEnds source).le
  · exact length_lines_lower_le source

/-- A sighting is on a line of the source, where its excerpt stands. -/
theorem Sighting.Occurs.placed
    {source : List Char}
    {sighting : Sighting}
    (occurs : sighting.Occurs source) :
    sighting.Placed source := by
  obtain ⟨notEmpty, takes, earlier, whole, offset⟩ :=
    Pattern.stands_of_mem_allMatches occurs.seen
  have isLine : (sighting.note source).line = earlier.count '\n' + 1 := by
    change ((sighting.survey.scanned source).take sighting.found.first.offset).count '\n' + 1 = _
    rw [whole, offset, List.take_left]
  have oneLine : '\n' ∉ sighting.found.text := by
    have inAll := List.mem_of_getElem? occurs.ranked
    exact fun member => takes.notMem (Survey.takesNone_of_mem _ inAll) '\n' member
      (List.mem_singleton_self '\n')
  obtain ⟨line, atLine, inLine⟩ := exists_line earlier sighting.found.last.rest notEmpty oneLine
  rw [← whole] at atLine
  obtain ⟨front, back, trimmed, -, -⟩ := exists_append_trim sighting.found.text
  have inText : Text.trim sighting.found.text <:+: sighting.found.text :=
    ⟨front, back, trimmed.symm⟩
  constructor
  case stands => exact ⟨earlier, _, whole, offset, isLine⟩
  case positive =>
    rw [isLine]
    exact Nat.succ_pos _
  case bounded =>
    obtain ⟨below, -⟩ := List.getElem?_eq_some_iff.mp atLine
    rw [isLine]
    exact Nat.le_trans below (sighting.survey.length_lines_scanned_le source)
  case excerpt =>
    refine ⟨line, ?_, ?_⟩
    · rw [isLine]
      exact atLine
    · change (String.ofList (Text.trim sighting.found.text)).toList <:+: line
      rw [String.toList_ofList]
      exact inText.trans inLine
  case aligned => exact sighting.survey.count_scanned source

/--
The notes of a sketch are those of all that its surveys see, by line, by survey and by place.
The line of each is one of the sketch, and there its excerpt stands in the text that its survey
looks at.
-/
theorem notes_placed (source : List Char) :
    ((lower source).notes.Pairwise fun first second => first.line ≤ second.line) ∧
      ∃ sightings : List Sighting,
        (lower source).notes = sightings.map (Sighting.note source) ∧
          (∀ sighting, sighting ∈ sightings ↔ sighting.Occurs source) ∧
          sightings.Pairwise (Sighting.ComesBefore source) ∧
          ∀ sighting ∈ sightings, sighting.Placed source := by
  constructor
  · rw [Sighting.notes_lower, List.pairwise_map]
    exact pairwise_sortedBy _ _
  · exact ⟨Sighting.byLine source, Sighting.notes_lower, fun _ => Sighting.mem_byLine,
      Sighting.pairwise_byLine, fun _ member => (Sighting.mem_byLine.mp member).placed⟩

end LedSketch.Sketch
