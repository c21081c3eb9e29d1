import LedSketch.Proofs.Pattern.Starts
import LedSketch.Proofs.Sketch.Replaced

namespace LedSketch.Sketch

/-!
# Lines

A line end at the end of a text begins no further line.  Since no rule replaces the last line
end of a text, a script has no line that its sketch does not have.
-/

/-- The lines of a text, without their ends. -/
def lines : List Char → List (List Char)
  | [] => []
  | c :: rest =>
      if c = '\n' then
        [] :: lines rest
      else
        match lines rest with
        | [] => [[c]]
        | line :: others => (c :: line) :: others

example : lines "ab\n\nc\n".toList = ["ab".toList, [], ['c']] := by decide

/-- Whether a text has no line that is left open. -/
def isEnded (text : List Char) : Bool := text.getLast?.all (· = '\n')

theorem isEnded_append
    (front : List Char)
    {back : List Char}
    (notEmpty : back ≠ []) :
    isEnded (front ++ back) = isEnded back := by
  rw [isEnded, List.getLast?_append_of_ne_nil front notEmpty, isEnded]

section

variable {c : Char} {rest : List Char}

theorem lines_cons_lineEnd : lines ('\n' :: rest) = [] :: lines rest := rfl

/-- What is no line end goes on a line in front of the text that follows on it. -/
theorem lines_cons_of_ne (notEnd : c ≠ '\n') :
    lines (c :: rest) = (c :: (lines rest).headD []) :: (lines rest).tail := by
  rw [lines, if_neg notEnd]
  cases lines rest <;> rfl

theorem length_lines (text : List Char) :
    (lines text).length = text.count '\n' + if isEnded text then 0 else 1 := by
  induction text with
  | nil => rfl
  | cons c rest inductionHypothesis =>
      cases rest with
      | nil => by_cases ends : c = '\n' <;> simp [ends, lines, isEnded]
      | cons second rest =>
          have sameEnd : isEnded (c :: second :: rest) = isEnded (second :: rest) :=
            isEnded_append [c] (List.cons_ne_nil second rest)
          rw [sameEnd]
          by_cases ends : c = '\n'
          · subst ends
            rw [lines_cons_lineEnd, List.length_cons, inductionHypothesis, List.count_cons_self]
            omega
          · have notNone : 0 < (lines (second :: rest)).length := by
              by_cases ends : second = '\n' <;> simp [ends, lines_cons_lineEnd, lines_cons_of_ne]
            rw [lines_cons_of_ne ends, List.length_cons, List.length_tail,
              List.count_cons_of_ne ends, ← inductionHypothesis]
            omega

/-- A text with the line ends of another one has no more lines if it does not leave one open. -/
theorem length_lines_le
    {text other : List Char}
    (sameEnds : text.count '\n' = other.count '\n')
    (ended : isEnded other = true → isEnded text = true) :
    (lines text).length ≤ (lines other).length := by
  rw [length_lines, length_lines, sameEnds]
  by_cases isOther : isEnded other = true
  · rw [ended isOther, isOther]
  · rw [if_neg isOther]
    split <;> omega

theorem prefix_headD_lines
    {front : List Char}
    (later : List Char)
    (oneLine : '\n' ∉ front) :
    front <+: (lines (front ++ later)).headD [] := by
  induction front with
  | nil => exact List.nil_prefix
  | cons c rest inductionHypothesis =>
      have notEnd := Ne.symm (List.ne_of_not_mem_cons oneLine)
      rw [List.cons_append, lines_cons_of_ne notEnd, List.headD_cons]
      exact List.cons_prefix_cons.mpr
        ⟨rfl, inductionHypothesis (List.not_mem_of_not_mem_cons oneLine)⟩

/-- A stretch without line ends stands on one line, behind as many as have ended before it. -/
theorem exists_line
    (earlier : List Char)
    {middle : List Char}
    (later : List Char)
    (notEmpty : middle ≠ [])
    (oneLine : '\n' ∉ middle) :
    ∃ line,
      (lines (earlier ++ (middle ++ later)))[earlier.count '\n']? = some line ∧
        middle <:+: line := by
  induction earlier with
  | nil =>
      have inHead := (prefix_headD_lines later oneLine).isInfix
      obtain ⟨c, rest, rfl⟩ := List.exists_cons_of_ne_nil notEmpty
      have notEnd := Ne.symm (List.ne_of_not_mem_cons oneLine)
      rw [List.cons_append, lines_cons_of_ne notEnd] at inHead
      rw [List.nil_append, List.cons_append, lines_cons_of_ne notEnd]
      exact ⟨_, rfl, inHead⟩
  | cons c rest inductionHypothesis =>
      obtain ⟨line, isLine, inLine⟩ := inductionHypothesis
      rw [List.cons_append]
      by_cases ends : c = '\n'
      · subst ends
        rw [List.count_cons_self, lines_cons_lineEnd]
        exact ⟨line, isLine, inLine⟩
      · rw [List.count_cons_of_ne ends, lines_cons_of_ne ends]
        cases ended : rest.count '\n' with
        | zero =>
            rw [ended] at isLine
            refine ⟨c :: line, ?_, List.infix_cons inLine⟩
            rw [List.headD_eq_head?_getD, List.head?_eq_getElem?, isLine]
            rfl
        | succ others =>
            rw [ended] at isLine
            refine ⟨line, ?_, inLine⟩
            rw [List.getElem?_cons_succ, List.getElem?_tail]
            exact isLine

end

/-- No match of a rule ends with a line end. -/
theorem Catalogue.mayEnd_of_mem :
    ∀ rule ∈ Catalogue.rules, rule.pattern.mayEnd '\n' = false := by
  decide

/-- A rule leaves no line open at the end of a text where none was. -/
theorem Rule.isEnded_apply
    {rule : Rule}
    (member : rule ∈ Catalogue.rules)
    {text : List Char}
    (ended : isEnded text = true) :
    isEnded (rule.apply text).1 = true := by
  have sameText := (rule.segments_keepLines member text).1
  change isEnded ((rule.segments text).flatMap Segment.after) = true
  -- Only the last segment has the end of the text, and it is kept as it is.
  rcases List.eq_nil_or_concat' (rule.segments text) with none | ⟨earlier, last, split⟩
  · rw [none]
    rfl
  rw [split, List.flatMap_append, List.flatMap_singleton] at sameText ⊢
  have notEmpty : last.before ≠ [] :=
    rule.before_ne_nil member (split ▸ List.mem_append_right _ (List.mem_singleton_self last))
  rw [← sameText, isEnded_append _ notEmpty] at ended
  cases last with
  | kept same => exact (isEnded_append _ notEmpty).trans ended
  | replaced old new =>
      obtain ⟨found, rfl, replaces⟩ := rule.replaces_of_segments member split
      obtain ⟨front, c, isText⟩ := List.eq_nil_or_concat' found.text |>.resolve_left notEmpty
      have takes := Pattern.takes_of_matchAt? replaces.matched
      rw [isText] at takes
      have isEnd : c = '\n' := by simpa [Segment.before, isText, isEnded] using ended
      have mayEnd := takes.mayEnd
      rw [isEnd, Catalogue.mayEnd_of_mem rule member] at mayEnd
      contradiction

theorem isEnded_unifyLineEnds (source : List Char) :
    isEnded (unifyLineEnds source) = isEnded source := by
  unfold isEnded
  congr 1
  fun_induction unifyLineEnds source with
  | case1 rest inductionHypothesis => simp [List.getLast?_cons, inductionHypothesis]
  | case2 c rest notPair inductionHypothesis => simp [List.getLast?_cons, inductionHypothesis]
  | case3 => rfl

theorem length_lines_unifyLineEnds (source : List Char) :
    (lines (unifyLineEnds source)).length = (lines source).length := by
  rw [length_lines, length_lines, count_unifyLineEnds, isEnded_unifyLineEnds]

/-- A script has no more lines than its sketch. -/
theorem length_lines_lower_le (source : List Char) :
    (lines (lower source).text).length ≤ (lines source).length := by
  have known : ∀ rule ∈ Catalogue.rules, rule ∈ Catalogue.rules := fun _ member => member
  have ended : isEnded (unifyLineEnds source) = true → isEnded (lower source).text = true :=
    lastText_keeps (isEnded · = true) known fun rule member text => rule.isEnded_apply member
  calc
    (lines (lower source).text).length
    _ ≤ (lines (unifyLineEnds source)).length := length_lines_le (count_lastText known _) ended
    _ = (lines source).length := length_lines_unifyLineEnds source

end LedSketch.Sketch
