import LedSketch.Proofs.Pattern.Starts
import LedSketch.Proofs.Sketch.Carried

namespace LedSketch.Sketch

/-!
# Comment marks and replacements

A replacement begins and ends with no part of a comment mark, and it closes no comment that its
match leaves open.  Marks are made of the text around a match only where the match is removed.
-/

open Pattern

/-- The characters of comment marks. -/
def markChars : List Char := ['/', '*']

theorem notMem_markChars_iff {c : Char} : c ∉ markChars ↔ c ≠ '/' ∧ c ≠ '*' := by
  simp [markChars]

/-- The end of a comment stands in one of two texts if it is not made where they meet. -/
theorem infix_or_of_infix_append
    {first second : List Char}
    (closes : ['*', '/'] <:+: first ++ second)
    (apart : first.getLast? ≠ some '*' ∨ second.head? ≠ some '/') :
    ['*', '/'] <:+: first ∨ ['*', '/'] <:+: second := by
  rcases List.infix_append_iff.mp closes with
    inFirst | inSecond | ⟨left, right, same, atEnd, atStart⟩
  · exact .inl inFirst
  · exact .inr inSecond
  · rcases left with _ | ⟨star, _ | ⟨slash, left⟩⟩
    · exact .inr (same ▸ atStart.isInfix)
    · obtain ⟨rfl, rfl⟩ := List.cons_eq_cons.mp same
      obtain ⟨front, rfl⟩ := atEnd
      obtain ⟨behind, rfl⟩ := atStart
      simp at apart
    · have whole : ['*', '/'] = star :: slash :: left := by
        have lengths := congrArg List.length same
        simp only [List.length_cons, List.length_nil, List.length_append] at lengths
        obtain rfl : right = [] := List.eq_nil_of_length_eq_zero (by omega)
        simpa using same
      exact .inl (whole ▸ atEnd.isInfix)

/-- A text without marks next to another one closes no comment with it. -/
theorem infix_of_infix_append_left
    {first second : List Char}
    (unmarked : ∀ c ∈ first, c ∉ markChars)
    (closes : ['*', '/'] <:+: first ++ second) :
    ['*', '/'] <:+: second := by
  have notStar : '*' ∉ first := fun member => unmarked '*' member (by decide)
  have apart : first.getLast? ≠ some '*' := fun isLast => notStar (List.mem_of_getLast? isLast)
  rcases infix_or_of_infix_append closes (.inl apart) with inFirst | inSecond
  · exact absurd (inFirst.subset List.mem_cons_self) notStar
  · exact inSecond

theorem infix_of_infix_append_right
    {first second : List Char}
    (unmarked : ∀ c ∈ second, c ∉ markChars)
    (closes : ['*', '/'] <:+: first ++ second) :
    ['*', '/'] <:+: first := by
  have notSlash : '/' ∉ second := fun member => unmarked '/' member (by decide)
  have apart : second.head? ≠ some '/' := fun isHead => notSlash (List.mem_of_head? isHead)
  rcases infix_or_of_infix_append closes (.inr apart) with inFirst | inSecond
  · exact inFirst
  · exact absurd (inSecond.subset (by simp)) notSlash

/-- Text that begins and ends with no part of a mark, and closes no comment unless a match does. -/
structure StandsApart (old new : List Char) : Prop where
  notEmpty : new ≠ []
  begins : opensNothing new.head?
  ends : '*' ∉ new.getLast?
  inside : ['*', '/'] <:+: new → ['*', '/'] <:+: old

namespace StandsApart

variable {old made new front carried back : List Char}

theorem of_unmarked
    (unmarked : ∀ c ∈ new, c ∉ markChars)
    (notEmpty : new ≠ []) :
    StandsApart old new where
  notEmpty := notEmpty
  begins := fun c isHead => notMem_markChars_iff.mp (unmarked c (List.mem_of_head? isHead))
  ends := fun isLast => unmarked '*' (List.mem_of_getLast? isLast) (by decide)
  inside := fun closes => absurd (by decide) (unmarked '*' (closes.subset List.mem_cons_self))

/-- What closes no comment stands apart with other text in front of it and behind it. -/
theorem surround
    (inside : ['*', '/'] <:+: carried → ['*', '/'] <:+: old)
    (unmarkedFront : ∀ c ∈ front, c ∉ markChars)
    (unmarkedBack : ∀ c ∈ back, c ∉ markChars)
    (frontText : front ≠ [])
    (backText : back ≠ []) :
    StandsApart old (front ++ carried ++ back) where
  notEmpty := List.append_ne_nil_of_right_ne_nil _ backText
  begins := by
    rw [List.append_assoc, List.head?_append_of_ne_nil _ frontText]
    exact fun c isHead => notMem_markChars_iff.mp (unmarkedFront c (List.mem_of_head? isHead))
  ends := by
    rw [List.getLast?_append_of_ne_nil _ backText]
    exact fun isLast => unmarkedBack '*' (List.mem_of_getLast? isLast) (by decide)
  inside := fun closes =>
    inside (infix_of_infix_append_left unmarkedFront
      (infix_of_infix_append_right unmarkedBack closes))

/-- Line ends that are added are no marks. -/
theorem keepLines (apart : StandsApart old made) : StandsApart old (keepLines old made) := by
  have unmarked : ∀ c ∈ List.replicate (old.count '\n' - made.count '\n') '\n', c ∉ markChars := by
    intro c member
    rw [List.eq_of_mem_replicate member]
    decide
  unfold Sketch.keepLines
  refine ⟨List.append_ne_nil_of_left_ne_nil apart.notEmpty _, ?_, ?_, fun closes =>
    apart.inside (infix_of_infix_append_right unmarked closes)⟩
  · rw [List.head?_append_of_ne_nil _ apart.notEmpty]
    exact apart.begins
  · intro isLast
    rw [List.getLast?_append] at isLast
    rcases Option.or_eq_some_iff.mp isLast with added | ⟨-, inMade⟩
    · exact unmarked '*' (List.mem_of_getLast? added) (by decide)
    · exact apart.ends inMade

end StandsApart

section Rules

variable {found : Match} {pattern : Pattern}

/-- A template that begins with some text stands apart if it has no characters of marks. -/
theorem standsApart_of_template
    {old : List Char}
    {before : String}
    {parts : List Part}
    (takes : Takes pattern found.text (found.groups.map Group.numbered))
    (avoids : (.text before :: parts).all (Part.avoids markChars pattern) = true)
    (beforeText : before.toList ≠ []) :
    StandsApart old ((.text before :: parts).flatMap (Part.expand found)) :=
  .of_unmarked (notMem_expand takes avoids) (by simp [Part.expand, beforeText])

/-- A template stands apart with any group, if the text around the group has no marks. -/
theorem standsApart_of_group_template
    {named carried : Nat}
    {before between after : String}
    (takes : Takes pattern found.text (found.groups.map Group.numbered))
    (avoidsFront :
      [Part.text before, .group named, .text between].all (Part.avoids markChars pattern) = true)
    (avoidsBack : [Part.text after].all (Part.avoids markChars pattern) = true)
    (beforeText : before.toList ≠ [])
    (afterText : after.toList ≠ []) :
    StandsApart found.text
      ([Part.text before, .group named, .text between, .group carried, .text after].flatMap
        (Part.expand found)) := by
  have inside (closes : ['*', '/'] <:+: found.group carried) : ['*', '/'] <:+: found.text :=
    closes.trans (Match.infix_group takes carried)
  have apart := StandsApart.surround inside (notMem_expand takes avoidsFront)
    (notMem_expand takes avoidsBack) (by simp [Part.expand, beforeText])
    (by simp [Part.expand, afterText])
  simpa [Part.expand] using apart

/-- What joined arguments close one of them closes. -/
theorem infix_of_infix_joinArguments
    {arguments : List (List Char)}
    (closes : ['*', '/'] <:+: joinArguments arguments) :
    ∃ argument ∈ arguments, ['*', '/'] <:+: argument := by
  induction arguments with
  | nil => exact absurd (List.eq_nil_of_infix_nil closes) (by simp)
  | cons argument rest inductionHypothesis =>
      cases rest with
      | nil =>
          rw [joinArguments, List.intercalate_singleton] at closes
          exact ⟨argument, List.mem_cons_self, closes⟩
      | cons next rest =>
          rw [joinArguments, List.intercalate_cons_cons, List.append_assoc] at closes
          rcases infix_or_of_infix_append closes (.inr (by simp)) with here | later
          · exact ⟨argument, List.mem_cons_self, here⟩
          · obtain ⟨other, member, closesOther⟩ :=
              inductionHypothesis (infix_of_infix_append_left (by decide) later)
            exact ⟨other, List.mem_cons_of_mem argument member, closesOther⟩

/-- A parameter that is reduced closes no comment unless it does as it is. -/
theorem infix_of_infix_parameterName?
    {parameter reduced : List Char}
    (isReduced : parameterName? parameter = some reduced)
    (closes : ['*', '/'] <:+: reduced) :
    ['*', '/'] <:+: parameter := by
  have unmarked_of_isName {name : List Char} (isName : ∀ c ∈ name, Text.isNameChar c = true) :
      ∀ c ∈ name, c ∉ markChars := by
    intro c member isMark
    rcases List.mem_pair.mp isMark with rfl | rfl <;> exact absurd (isName _ member) (by decide)
  have inDefault (closes : ['*', '/'] <:+: defaultPart parameter) : ['*', '/'] <:+: parameter := by
    obtain ⟨front, back, whole, -, -⟩ :=
      exists_append_trim ((parameter.dropWhile (· ≠ '=')).drop 1)
    have trimmed : defaultPart parameter <:+: (parameter.dropWhile (· ≠ '=')).drop 1 :=
      ⟨front, back, whole.symm⟩
    exact (closes.trans trimmed).trans
      ((List.drop_suffix 1 _).trans (List.dropWhile_suffix _)).isInfix
  obtain ⟨name, isName, ⟨-, rfl⟩ | rfl⟩ := parameterName?_cases isReduced
  · have star : '*' ∈ reduced := closes.subset List.mem_cons_self
    exact absurd (by decide) (unmarked_of_isName isName '*' star)
  · rw [List.append_assoc] at closes
    exact inDefault (infix_of_infix_append_left (by decide)
      (infix_of_infix_append_left (unmarked_of_isName isName) closes))

/-- A stretch between separators is a part of the text. -/
theorem infix_of_mem_splitOn
    {separator : Char}
    {text stretch : List Char}
    (member : stretch ∈ splitOn separator text) :
    stretch <:+: text := by
  have inJoined {stretches : List (List Char)} (member : stretch ∈ stretches) :
      stretch <:+: List.intercalate [separator] stretches := by
    induction stretches with
    | nil => contradiction
    | cons first others inductionHypothesis =>
        cases others with
        | nil =>
            rw [List.mem_singleton.mp member, List.intercalate_singleton]
        | cons next others =>
            rw [List.intercalate_cons_cons]
            rcases List.mem_cons.mp member with rfl | later
            · exact ((List.prefix_append _ _).trans (List.prefix_append _ _)).isInfix
            · exact (inductionHypothesis later).trans (List.suffix_append _ _).isInfix
  rw [splitOn_eq] at member
  have joined := inJoined member
  rwa [List.intercalate_splitOn] at joined

end Rules

namespace Catalogue

variable {rule : Rule} {turns : Nat} {state : Lexical} {found : Match} {new behind : List Char}
  {text : List Char} {earlier later : List Segment}

theorem standsApart_eraseType
    (takes : Takes declarators.pattern found.text (found.groups.map Group.numbered))
    (changed : eraseType found ≠ found.text) :
    StandsApart found.text (eraseType found) := by
  have apart := @standsApart_of_template found declarators.pattern found.text "let " [.group 1]
    takes (by decide) (by decide)
  unfold eraseType at changed ⊢
  split
  · next isCast => exact absurd (if_pos isCast) changed
  · simpa [Part.expand] using apart

theorem standsApart_constructButton
    (takes : Takes buttonAllocations.pattern found.text (found.groups.map Group.numbered))
    (changed : constructButton found ≠ found.text) :
    StandsApart found.text (constructButton found) := by
  have apart : StandsApart found.text
      ([Part.text "let ", .group 2, .text " = createButton(", .group 4, .text ");"].flatMap
        (Part.expand found)) :=
    standsApart_of_group_template takes (by decide) (by decide) (by decide) (by decide)
  unfold constructButton at changed ⊢
  dsimp only at changed ⊢
  split
  · next isKept => exact absurd (if_pos isKept) changed
  · simpa [Part.expand] using apart

theorem standsApart_awaitDelay
    (takes : Takes awaitDelays.pattern found.text (found.groups.map Group.numbered))
    (changed : awaitDelay found ≠ found.text) :
    StandsApart found.text (awaitDelay found) := by
  have apart := @standsApart_of_template found awaitDelays.pattern found.text "await "
    [.group 2, .text "("] takes (by decide) (by decide)
  unfold awaitDelay at changed ⊢
  split
  · next isAwaited => simp [isAwaited] at changed
  · simpa [Part.expand] using apart

/-- What the parameters of a function close stands in its match, since only defaults are left. -/
theorem standsApart_functionHeader
    {header : List Char}
    (takes : Takes functions.pattern found.text (found.groups.map Group.numbered))
    (made : functionHeader found = some header) :
    StandsApart found.text header := by
  have front := @notMem_expand found markChars functions.pattern takes
    [.group 1, .text "async function ", .group 2, .text "("] (by decide)
  have back := @notMem_expand found markChars functions.pattern takes
    [.text ")", .group 4] (by decide)
  unfold functionHeader at made
  dsimp only at made
  split at made
  · contradiction
  cases made
  have inside
      (closes : ['*', '/'] <:+:
        joinArguments ((splitOn ',' (found.group 3)).filterMap parameterName?)) :
      ['*', '/'] <:+: found.text := by
    obtain ⟨reduced, member, closesReduced⟩ := infix_of_infix_joinArguments closes
    obtain ⟨parameter, isParameter, isReduced⟩ := List.mem_filterMap.mp member
    exact ((infix_of_infix_parameterName? isReduced closesReduced).trans
      (infix_of_mem_splitOn isParameter)).trans (Match.infix_group takes 3)
  have apart := StandsApart.surround inside front back (by simp [Part.expand])
    (by simp [Part.expand])
  simpa [Part.expand] using apart

/-- Digits are left of an integer. -/
theorem standsApart_integerSuffixes
    (takes : Takes integerSuffixes.pattern found.text (found.groups.map Group.numbered)) :
    StandsApart found.text ([Part.group 1].flatMap (Part.expand found)) := by
  refine .of_unmarked (notMem_expand takes (by decide)) fun nothing => ?_
  let unsignedMark := oneOf ['u', 'U']
  let longMark := oneOf ['l', 'L']
  let digits : Pattern := .either
    (all [Vocabulary.mark '0', oneOf ['x', 'X'], oneOrMore (.char Text.isHexDigit)])
    (oneOrMore (.char Text.isDigit))
  let suffix : List Pattern := [
    .either (.seq unsignedMark (optional (.seq longMark (optional longMark))))
      (all [longMark, optional longMark, optional unsignedMark]),
    .wordEdge]
  have around : Takes (all ([.wordEdge] ++ .group 1 digits :: suffix)) found.text
      (found.groups.map Group.numbered) := takes
  obtain ⟨_, _, _, _, _, _, takesDigits, _, _⟩ := Match.around_group around (by decide)
  have noDigits : found.group 1 = [] := by simpa [Part.expand] using nothing
  rw [noDigits] at takesDigits
  exact absurd takesDigits.mayBeEmpty (by decide)

/-- The rules of whose matches only line ends are left. -/
def removingRules : List Rule := [comments, frequencySuffix, frequencyPrefix, trailingWhitespace]

/-- What is left of a match stands apart, or it is the line ends of a match that is removed. -/
theorem standsApart_of_replaces
    (member : rule ∈ rules)
    (keeping : rule ∉ deletingRules)
    (replaces : rule.Replaces turns state found new behind) :
    StandsApart found.text new ∨ rule ∈ removingRules ∧ ∀ c ∈ new, c = '\n' := by
  have takes := Pattern.takes_of_matchAt? replaces.matched
  obtain ⟨made, applied, changed, rfl⟩ := replaces.made
  have removed : ∀ c ∈ keepLines found.text [], c = '\n' := fun c => List.eq_of_mem_replicate
  -- The cases come in the order in which the rules are applied.
  simp only [rules, List.mem_cons, List.not_mem_nil, or_false] at member
  rcases member with rfl | rfl | rfl | rfl | rfl | rfl | rfl | rfl | rfl | rfl | rfl | rfl |
    rfl | rfl | rfl | rfl | rfl | rfl | rfl | rfl | rfl
  · cases applied
    exact .inr ⟨by simp [removingRules],
      eq_lineEnd_of_mem_stripped (slash_of_stripped takes changed)⟩
  · cases applied
    exact .inl (standsApart_of_group_template takes (by decide) (by decide) (by decide)
      (by decide)).keepLines
  · exact absurd (by simp [deletingRules]) keeping
  · cases applied
    exact .inl (standsApart_of_template takes (by decide) (by decide)).keepLines
  · cases applied
    exact .inr ⟨by simp [removingRules], removed⟩
  · cases applied
    exact .inr ⟨by simp [removingRules], removed⟩
  · cases applied
    exact .inl (standsApart_of_template takes (by decide) (by decide)).keepLines
  · cases applied
    exact .inl (standsApart_of_template takes (by decide) (by decide)).keepLines
  · cases applied
    exact .inl (standsApart_integerSuffixes takes).keepLines
  · exact absurd (by simp [deletingRules]) keeping
  · cases applied
    exact .inl (standsApart_eraseType takes changed).keepLines
  · cases applied
    exact .inl (standsApart_of_group_template takes (by decide) (by decide) (by decide)
      (by decide)).keepLines
  · cases applied
    exact .inl (standsApart_of_group_template takes (by decide) (by decide) (by decide)
      (by decide)).keepLines
  · exact absurd (by simp [deletingRules]) keeping
  · exact absurd (by simp [deletingRules]) keeping
  · cases applied
    exact .inl (standsApart_constructButton takes changed).keepLines
  · cases applied
    exact .inl (standsApart_of_group_template takes (by decide) (by decide) (by decide)
      (by decide)).keepLines
  · cases applied
    exact .inl (standsApart_awaitDelay takes changed).keepLines
  · cases applied
    exact .inl (standsApart_of_template takes (by decide) (by decide)).keepLines
  · unfold Replacement.apply? at applied
    change (if state.depth = 0 then functionHeader found else none) = some made at applied
    split at applied
    · exact .inl (standsApart_functionHeader takes applied).keepLines
    · contradiction
  · cases applied
    exact .inr ⟨by simp [removingRules], removed⟩

/-- A replacement closes no comment that its match leaves open, whatever follows it. -/
theorem not_infix_of_replaces
    (member : rule ∈ rules)
    (keeping : rule ∉ deletingRules)
    (replaces : rule.Replaces turns state found new behind)
    (leavesOpen : ¬ ['*', '/'] <:+: found.text)
    (following : Option Char) :
    ¬ ['*', '/'] <:+: new ++ following.toList := by
  intro closes
  rcases standsApart_of_replaces member keeping replaces with apart | ⟨-, onlyLineEnds⟩
  · rcases infix_or_of_infix_append closes (.inl apart.ends) with inNew | inFollowing
    · exact leavesOpen (apart.inside inNew)
    · have atMostOne := inFollowing.length_le
      cases following <;> simp at atMostOne
  · have unmarked : ∀ c ∈ new, c ∉ markChars := fun c inNew => by
      rw [onlyLineEnds c inNew]
      decide
    have atMostOne := (infix_of_infix_append_left unmarked closes).length_le
    cases following <;> simp at atMostOne

/-- Blanks that are removed end with their line. -/
theorem ends_of_trailing
    (replaces : trailingWhitespace.Replaces turns state found new behind) :
    Script.StopsAt (· ≠ '\n') behind := by
  have passes := (Pattern.matchAt?_sound replaces.matched).2.passes
  have same : found.text ++ found.last.rest = found.text ++ behind :=
    passes.rest.symm.trans replaces.rest
  have atEnd := Pattern.atLineEnd_of_matchAt? replaces.matched
  unfold Pattern.atLineEnd at atEnd
  rw [List.append_cancel_left same] at atEnd
  intro c isHead
  simpa [isHead] using atEnd

/-- A line end that no match begins with is there when the rule has been applied. -/
theorem opensNothing_after_of_lineEnd
    (member : rule ∈ rules)
    (split : rule.segments text = earlier ++ later)
    (notStart : rule.pattern.mayStart '\n' = false)
    (ends : Script.StopsAt (· ≠ '\n') (later.flatMap Segment.before)) :
    opensNothing (later.flatMap Segment.after).head? := by
  rcases later with _ | ⟨segment, later⟩
  · exact fun c isHead => by contradiction
  have notEmpty : segment.before ≠ [] :=
    rule.before_ne_nil member (show segment ∈ rule.segments text by simp [split])
  obtain ⟨c, more, isText⟩ := List.exists_cons_of_ne_nil notEmpty
  obtain rfl : c = '\n' := by simpa using ends c (by simp [isText])
  cases segment with
  | kept stretch =>
      obtain rfl : stretch = '\n' :: more := isText
      rintro c ⟨⟩
      decide
  | replaced old new =>
      obtain ⟨found, rfl, replaces⟩ := Rule.replaces_of_segments member split
      have takes := Pattern.takes_of_matchAt? replaces.matched
      rw [show found.text = '\n' :: more from isText] at takes
      exact absurd takes.mayStart (Bool.eq_false_iff.mp notStart)

/-- Nothing is left of a frequency. -/
theorem eq_nil_of_frequency
    (isFrequency : rule = frequencySuffix ∨ rule = frequencyPrefix)
    (replaces : rule.Replaces turns state found new behind) :
    new = [] := by
  have takes := Pattern.takes_of_matchAt? replaces.matched
  obtain ⟨made, applied, -, rfl⟩ := replaces.made
  have oneLine : '\n' ∉ found.text := by
    rcases isFrequency with rfl | rfl <;> exact takes.lacks (by decide)
  have nothing : made = [] := by
    rcases isFrequency with rfl | rfl <;> exact (Option.some.inj applied).symm
  rw [nothing, keepLines, List.count_eq_zero.mpr oneLine]
  rfl

/-- Behind a frequency stands what is kept behind all frequencies next to it. -/
theorem head?_after_of_frequency
    (member : rule ∈ rules)
    (isFrequency : rule = frequencySuffix ∨ rule = frequencyPrefix)
    (split : rule.segments text = earlier ++ later) :
    (later.flatMap Segment.after).head? =
      ((later.dropWhile Segment.isReplaced).flatMap Segment.before).head? := by
  induction later generalizing earlier with
  | nil => rfl
  | cons segment later inductionHypothesis =>
      have onward : rule.segments text = (earlier ++ [segment]) ++ later := by simpa using split
      cases segment with
      | kept stretch =>
          have notEmpty : stretch ≠ [] :=
            rule.before_ne_nil member (show .kept stretch ∈ rule.segments text by simp [split])
          rw [List.dropWhile_cons_of_neg (by simp [Segment.isReplaced])]
          simp only [List.flatMap_cons, Segment.after, Segment.before]
          rw [List.head?_append_of_ne_nil _ notEmpty, List.head?_append_of_ne_nil _ notEmpty]
      | replaced old new =>
          obtain ⟨found, rfl, replaces⟩ := Rule.replaces_of_segments member split
          obtain rfl := eq_nil_of_frequency isFrequency replaces
          rw [List.dropWhile_cons_of_pos rfl, ← inductionHypothesis onward]
          rfl

end Catalogue

end LedSketch.Sketch
