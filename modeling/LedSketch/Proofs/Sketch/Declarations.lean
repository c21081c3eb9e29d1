import LedSketch.Proofs.Pattern.Prefers
import LedSketch.Proofs.Sketch.Yields
import LedSketch.Sketch.Catalogue

namespace LedSketch.Sketch

/-!
# Declarations and the rule that erases their types

A declaration is read word by word: qualifiers, a word for the sign, the type, and what links
it to the name.  The pattern of the rule prefers the reading that leaves nothing but the name,
though it could also take the second word of some types for a name.
-/

open Pattern Vocabulary
open Script (StopsAt span_append)

section Words

variable {test : Char → Bool} {first second behind other : List Char}

/-- A text begins with a longest stretch of a class in one way only. -/
theorem stretch_unique
    (allFirst : ∀ c ∈ first, test c = true)
    (stops : StopsAt test behind)
    (allSecond : ∀ c ∈ second, test c = true)
    (stopsOther : StopsAt test other)
    (same : first ++ behind = second ++ other) :
    first = second ∧ behind = other := by
  have split := span_append allFirst stops
  rw [same, span_append allSecond stopsOther] at split
  cases split
  exact ⟨rfl, rfl⟩

/-- What stays within a class is a part of the longest stretch of it. -/
theorem exists_of_stretch
    (stops : StopsAt test behind)
    (allSecond : ∀ c ∈ second, test c = true)
    (same : first ++ behind = second ++ other) :
    ∃ more, first = second ++ more ∧ other = more ++ behind := by
  rcases List.append_eq_append_iff.mp same with ⟨more, rfl, rfl⟩ | ⟨more, rfl, rfl⟩
  · cases more with
    | nil => exact ⟨[], by simp, by simp⟩
    | cons c more =>
        have inside := allSecond c (by simp)
        rw [stops c rfl] at inside
        contradiction
  · exact ⟨more, rfl, rfl⟩

/-- Whether a text begins with a character of a name. -/
def BeginsWord (text : List Char) : Prop :=
  ∃ c ∈ text.head?, Text.isNameChar c = true

/-- A word ends where none begins. -/
theorem stopsAt_of_not_beginsWord
    {text : List Char}
    (noWord : ¬ BeginsWord text) :
    StopsAt Text.isNameChar text :=
  fun c isHead => Bool.eq_false_iff.mpr fun isName => noWord ⟨c, isHead, isName⟩

/-- A word does not begin with a blank. -/
theorem BeginsWord.noBlank
    {text : List Char}
    (begins : BeginsWord text) :
    StopsAt Text.isBlank text := by
  obtain ⟨c, isHead, isName⟩ := begins
  intro next isNext
  cases Option.some.inj (isHead.symm.trans isNext)
  by_contra isBlank
  rw [Script.not_isNameChar_of_isBlank (Bool.not_eq_false _ ▸ isBlank)] at isName
  contradiction

/-- A word begins with its first letter. -/
theorem BeginsWord.of_word
    {word : List Char}
    (notEmpty : word ≠ [])
    (isName : ∀ c ∈ word, Text.isNameChar c = true)
    (behind : List Char) :
    BeginsWord (word ++ behind) := by
  obtain ⟨c, others, rfl⟩ := List.exists_cons_of_ne_nil notEmpty
  exact ⟨c, rfl, isName c List.mem_cons_self⟩

end Words

/-- White space between two words. -/
structure IsGap (text : List Char) : Prop where
  notEmpty : text ≠ []
  blank : ∀ c ∈ text, Text.isBlank c = true

namespace IsGap

variable {gap : List Char}

/-- What the pattern of blanks takes is a gap. -/
theorem of_takes
    {taken : List (Nat × List Char)}
    (takes : Takes spaces1 gap taken) :
    IsGap gap where
  notEmpty := by
    rintro rfl
    have empty := takes.mayBeEmpty
    contradiction
  blank c member := by simpa [spaces1, oneOrMore, mayTake] using takes.mayTake member

/-- No word goes on where white space begins. -/
theorem stops
    (isGap : IsGap gap)
    (behind : List Char) :
    StopsAt Text.isNameChar (gap ++ behind) := by
  obtain ⟨c, others, rfl⟩ := List.exists_cons_of_ne_nil isGap.notEmpty
  intro next isNext
  cases isNext
  exact Script.not_isNameChar_of_isBlank (isGap.blank c List.mem_cons_self)

/-- A gap in front of a word is taken whole. -/
theorem prefers
    {turns : Nat}
    {start : Progress}
    {behind : List Char}
    (isGap : IsGap gap)
    (text : start.cursor.rest = gap ++ behind)
    (begins : BeginsWord behind)
    (enough : gap.length ≤ turns) :
    Prefers turns spaces1 start (start.skip gap.length) :=
  .oneOrMore_char text isGap.notEmpty isGap.blank begins.noBlank enough

end IsGap

/-- One of some words, and white space behind it. -/
def leadingWord (texts : List String) : Pattern := .seq (words texts) spaces1

/-- Words of names, none of which begins another one. -/
structure AreApart (texts : List String) : Prop where
  notEmpty : texts ≠ []
  isName : ∀ word ∈ texts, ∀ c ∈ word.toList, Text.isNameChar c = true
  alone : ∀ word ∈ texts, ∀ other ∈ texts, other.toList <+: word.toList → other = word

section LeadingWords

variable {turns : Nat} {start : Progress} {texts : List String} {word : String}
  {gap behind : List Char}

/-- A word of the list is taken with the gap behind it. -/
theorem prefers_leadingWord
    (areApart : AreApart texts)
    (text : start.cursor.rest = word.toList ++ (gap ++ behind))
    (member : word ∈ texts)
    (isGap : IsGap gap)
    (begins : BeginsWord behind)
    (enough : gap.length ≤ turns) :
    Prefers turns (leadingWord texts) start (start.skip (word.toList ++ gap).length) := by
  have alone : ∀ other ∈ texts, other.toList <+: word.toList ++ (gap ++ behind) →
      other = word := by
    rintro other isOther ⟨rest, same⟩
    obtain ⟨more, whole, -⟩ :=
      exists_of_stretch (isGap.stops behind) (areApart.isName other isOther) same.symm
    exact areApart.alone word member other isOther ⟨more, whole.symm⟩
  have onward := isGap.prefers (Progress.rest_skip text) begins enough
  rw [Progress.skip_skip, ← List.length_append] at onward
  exact .seq (.words text member alone) onward

/-- Where another word stands, none of the words leads. -/
theorem fails_leadingWord
    (areApart : AreApart texts)
    (isName : ∀ c ∈ word.toList, Text.isNameChar c = true)
    (stops : StopsAt Text.isNameChar behind)
    (text : start.cursor.rest = word.toList ++ behind)
    (notMem : word ∉ texts) :
    Fails turns (leadingWord texts) start := by
  refine .of_takes fun passed taken rest takes whole => ?_
  obtain ⟨front, gap, _, _, takesWord, takesGap, rfl, -⟩ := takes
  obtain ⟨other, member, rfl⟩ := takes_words areApart.notEmpty takesWord
  rw [text, List.append_assoc] at whole
  obtain ⟨same, -⟩ :=
    stretch_unique isName stops (areApart.isName other member)
      ((IsGap.of_takes takesGap).stops rest) whole
  exact notMem (String.toList_inj.mp same ▸ member)

end LeadingWords

/-- The types that are two words. -/
def typePairs : List (String × String) := [("long", "long"), ("long", "int"), ("short", "int")]

/-- The types that are one word, but those of a fixed width. -/
def typeWords : List String :=
  ["size_t", "int", "long", "short", "byte", "char", "float", "double", "boolean", "bool", "word",
    "String"]

/-- The widths of the integer types of a fixed width. -/
def widths : List String := ["8", "16", "32", "64"]

/-- The texts of the types of numbers. -/
inductive IsType : List Char → Prop where
  | sized
      {sign width : String}
      (isSign : sign ∈ ["", "u"])
      (isWidth : width ∈ widths) :
      IsType (sign.toList ++ ("int".toList ++ (width.toList ++ "_t".toList)))
  | word
      {word : String}
      (member : word ∈ typeWords) :
      IsType word.toList
  | pair
      {pair : String × String}
      {gap : List Char}
      (member : pair ∈ typePairs)
      (isGap : IsGap gap) :
      IsType (pair.1.toList ++ (gap ++ pair.2.toList))

/-- The types in order of preference, those of two words before those of one. -/
theorem numericTypes_eq :
    numericTypes =
      [sizedInteger, literal "size_t"] ++ typePairs.map (fun pair => twoWords pair.1 pair.2) ++
        typeWords.tail.map literal :=
  rfl

section Types

variable {passed : List Char} {taken : List (Nat × List Char)}

/-- A sized integer has a sign and a width. -/
theorem takes_sizedInteger (takes : Takes sizedInteger passed taken) :
    ∃ sign ∈ ["", "u"], ∃ width ∈ widths,
      passed = sign.toList ++ ("int".toList ++ (width.toList ++ "_t".toList)) := by
  obtain ⟨front, _, _, _, takesSign, takesRest, rfl, -⟩ := takes_all_cons takes
  obtain ⟨_, _, _, _, takesInt, takesOthers, rfl, -⟩ := takes_all_cons takesRest
  obtain ⟨_, _, _, _, takesWidth, takesEnd, rfl, -⟩ := takes_all_cons takesOthers
  obtain ⟨width, isWidth, rfl⟩ := takes_words (by decide) takesWidth
  have isSign : ∃ sign ∈ ["", "u"], front = sign.toList := by
    rcases takesSign with ⟨-, c, isMark, rfl⟩ | ⟨rfl, -⟩
    · rw [of_decide_eq_true isMark]
      exact ⟨"u", by decide, rfl⟩
    · exact ⟨"", by decide, rfl⟩
  obtain ⟨sign, isSign, rfl⟩ := isSign
  have ends : Takes (literal "_t") _ _ := takesEnd
  rw [takes_literal takesInt, takes_literal ends]
  exact ⟨sign, isSign, width, isWidth, rfl⟩

/-- A type of two words has a gap between them. -/
theorem takes_twoWords
    {first second : String}
    (takes : Takes (twoWords first second) passed taken) :
    ∃ gap, IsGap gap ∧ passed = first.toList ++ (gap ++ second.toList) := by
  obtain ⟨_, _, _, _, takesFirst, takesRest, rfl, -⟩ := takes_all_cons takes
  obtain ⟨gap, _, _, _, takesGap, takesSecond, rfl, -⟩ := takes_all_cons takesRest
  have ends : Takes (literal second) _ _ := takesSecond
  rw [takes_literal takesFirst, takes_literal ends]
  exact ⟨gap, .of_takes takesGap, rfl⟩

/-- The texts of types are what the patterns of types take. -/
theorem isType_of_takes (takes : Takes (any numericTypes) passed taken) : IsType passed := by
  have notEmpty : numericTypes ≠ [] := List.cons_ne_nil _ _
  obtain ⟨pattern, member, takesType⟩ := takes_any notEmpty takes
  rw [numericTypes_eq, List.mem_append, List.mem_append, List.mem_map, List.mem_map] at member
  rcases member with (first | ⟨pair, isPair, rfl⟩) | ⟨word, isWord, rfl⟩
  · rcases List.mem_cons.mp first with rfl | second
    · obtain ⟨sign, isSign, width, isWidth, rfl⟩ := takes_sizedInteger takesType
      exact .sized isSign isWidth
    · obtain rfl := List.mem_singleton.mp second
      rw [takes_literal takesType]
      exact .word (by decide)
  · obtain ⟨gap, isGap, rfl⟩ := takes_twoWords takesType
    exact .pair isPair isGap
  · rw [takes_literal takesType]
    exact .word (List.mem_of_mem_tail isWord)

end Types

/-- A type begins with one of these words, which is all of it but for the types of two words. -/
def typeHeads : List String :=
  ["int8_t", "int16_t", "int32_t", "int64_t", "uint8_t", "uint16_t", "uint32_t", "uint64_t"] ++
    typeWords

theorem areApart_qualifiers : AreApart ["const", "static", "volatile"] where
  notEmpty := by decide
  isName := by decide
  alone := by decide

theorem areApart_signs : AreApart ["unsigned", "signed"] where
  notEmpty := by decide
  isName := by decide
  alone := by decide

theorem isName_typeHeads :
    ∀ word ∈ typeHeads, word.toList ≠ [] ∧ ∀ c ∈ word.toList, Text.isNameChar c = true := by
  decide

/-- A type begins with one of the known words. -/
theorem IsType.head
    {type tail : List Char}
    (isType : IsType type)
    (stops : StopsAt Text.isNameChar tail) :
    ∃ word ∈ typeHeads, ∃ behind,
      StopsAt Text.isNameChar behind ∧ type ++ tail = word.toList ++ behind := by
  cases isType with
  | @sized sign width isSign isWidth =>
      have joined : sign.toList ++ ("int".toList ++ (width.toList ++ "_t".toList)) =
          (sign ++ ("int" ++ (width ++ "_t"))).toList := by simp
      have known : ∀ sign ∈ ["", "u"], ∀ width ∈ widths,
          sign ++ ("int" ++ (width ++ "_t")) ∈ typeHeads := by
        decide
      exact ⟨_, known sign isSign width isWidth, tail, stops, by rw [joined]⟩
  | @word word member =>
      exact ⟨word, List.mem_append_right _ member, tail, stops, rfl⟩
  | @pair pair gap member isGap =>
      have known : ∀ pair ∈ typePairs, pair.1 ∈ typeHeads := by decide
      exact ⟨pair.1, known pair member, _, isGap.stops (pair.2.toList ++ tail), by simp⟩

section Prefer

variable {turns : Nat} {start : Progress} {sign width : String} {tail : List Char}

/-- A sized integer is taken whole. -/
theorem prefers_sizedInteger
    (isSign : sign ∈ ["", "u"])
    (isWidth : width ∈ widths)
    (text :
      start.cursor.rest =
        sign.toList ++ ("int".toList ++ (width.toList ++ ("_t".toList ++ tail)))) :
    Prefers turns sizedInteger start
      (start.skip
        (sign.toList ++ ("int".toList ++ (width.toList ++ "_t".toList))).length) := by
  have front : Prefers turns (optional (mark 'u')) start (start.skip sign.toList.length) := by
    simp only [List.mem_cons, List.not_mem_nil, or_false] at isSign
    rcases isSign with rfl | rfl
    · refine .absent (.of_mayStart rfl ?_)
      rw [text]
      rintro c ⟨⟩
      rfl
    · exact .left (.char text rfl)
  have atInt := Progress.rest_skip text
  have atWidth := Progress.rest_skip atInt
  have atEnd := Progress.rest_skip atWidth
  have alone : ∀ other ∈ widths,
      other.toList <+: width.toList ++ ("_t".toList ++ tail) → other = width := by
    intro other isOther begins
    simp only [widths, List.mem_cons, List.not_mem_nil, or_false] at isOther isWidth
    rcases isOther with rfl | rfl | rfl | rfl <;> rcases isWidth with rfl | rfl | rfl | rfl <;>
      simp at begins ⊢
  have ending : Prefers turns (all [literal "_t"]) _ _ := Prefers.literal atEnd
  have whole :=
    front.all_cons ((Prefers.literal atInt).all_cons
      ((Prefers.words atWidth isWidth alone).all_cons ending))
  simp only [Progress.skip_skip] at whole
  simp only [List.length_append]
  rwa [Nat.add_assoc, Nat.add_assoc] at whole

/-- A type of two words is taken whole. -/
theorem prefers_twoWords
    {first second : String}
    {gap : List Char}
    (isGap : IsGap gap)
    (begins : BeginsWord (second.toList ++ tail))
    (text : start.cursor.rest = first.toList ++ (gap ++ (second.toList ++ tail)))
    (enough : gap.length ≤ turns) :
    Prefers turns (twoWords first second) start
      (start.skip (first.toList ++ (gap ++ second.toList)).length) := by
  have atGap := Progress.rest_skip text
  have atSecond := Progress.rest_skip atGap
  have ending : Prefers turns (all [literal second]) _ _ := Prefers.literal atSecond
  have whole :=
    (Prefers.literal text).all_cons ((isGap.prefers atGap begins enough).all_cons ending)
  simp only [Progress.skip_skip] at whole
  simp only [List.length_append]
  rwa [Nat.add_assoc] at whole

end Prefer

/-- What all alternatives agree on is found if one of them fits. -/
theorem findSome?_of_agree
    {items : List α}
    {test : α → Option β}
    {item : α}
    {found : β}
    (agree : ∀ other ∈ items, test other = none ∨ test other = some found)
    (member : item ∈ items)
    (fits : test item = some found) :
    items.findSome? test = some found := by
  induction items with
  | nil => contradiction
  | cons first items inductionHypothesis =>
      obtain ⟨here, others⟩ := List.forall_mem_cons.mp agree
      rw [List.findSome?_cons]
      rcases here with none | some
      · rw [none]
        refine inductionHypothesis others ((List.mem_cons.mp member).resolve_left ?_)
        rintro rfl
        rw [none] at fits
        contradiction
      · rw [some]

/-- Whether a search fails wherever a word goes on. -/
def StuckInWords
    {result : Type}
    (onward : Progress → Option result) :
    Prop :=
  ∀ after, BeginsWord after.cursor.rest → onward after = none

section Search

variable {turns : Nat} {start : Progress} {result : Type} {onward : Progress → Option result}
  {found : result} {pattern : Pattern} {word tail type : List Char}

/-- A pattern of words takes all of a word or leads nowhere. -/
theorem search_word_eq_none
    (names :
      ∀ passed taken, Takes pattern passed taken → ∀ c ∈ passed, Text.isNameChar c = true)
    (stuck : StuckInWords onward)
    (isName : ∀ c ∈ word, Text.isNameChar c = true)
    (stops : StopsAt Text.isNameChar tail)
    (text : start.cursor.rest = word ++ tail)
    (other : ∀ taken, ¬ Takes pattern word taken) :
    search Text.isWordChar turns pattern onward start = none := by
  refine search_eq_none fun after passed remembered took => ?_
  have whole := took.passes.rest
  rw [text] at whole
  obtain ⟨more, rfl, rest⟩ := exists_of_stretch stops (names _ _ took.takes) whole
  cases more with
  | nil =>
      rw [List.append_nil] at other
      exact absurd took.takes (other _)
  | cons c more =>
      refine stuck after ⟨c, ?_, isName c (by simp)⟩
      rw [rest]
      rfl

/-- A type of two words does not fit where the second word is missing. -/
theorem search_twoWords_eq_none
    {first second : String}
    (isNameFirst : ∀ c ∈ first.toList, Text.isNameChar c = true)
    (stuck : StuckInWords onward)
    (isName : ∀ c ∈ word, Text.isNameChar c = true)
    (stops : StopsAt Text.isNameChar tail)
    (text : start.cursor.rest = word ++ tail)
    (other :
      ∀ gap behind, IsGap gap → StopsAt Text.isNameChar behind → word = first.toList →
        tail ≠ gap ++ (second.toList ++ behind)) :
    search Text.isWordChar turns (twoWords first second) onward start = none := by
  refine search_eq_none fun after passed remembered took => ?_
  obtain ⟨gap, isGap, rfl⟩ := takes_twoWords took.takes
  have whole := took.passes.rest
  rw [text, List.append_assoc, List.append_assoc] at whole
  obtain ⟨sameFirst, sameTail⟩ :=
    stretch_unique isName stops isNameFirst (isGap.stops _) whole
  by_cases begins : BeginsWord after.cursor.rest
  · exact stuck after begins
  · exact absurd sameTail
      (other gap _ isGap (stopsAt_of_not_beginsWord begins) sameFirst)

/-- A word fits as itself or not at all. -/
theorem search_literal_cases
    {other : String}
    (isNameOther : ∀ c ∈ other.toList, Text.isNameChar c = true)
    (stuck : StuckInWords onward)
    (isName : ∀ c ∈ word, Text.isNameChar c = true)
    (stops : StopsAt Text.isNameChar tail)
    (text : start.cursor.rest = word ++ tail)
    (fits : onward (start.skip word.length) = some found) :
    search Text.isWordChar turns (literal other) onward start = none ∨
      search Text.isWordChar turns (literal other) onward start = some found := by
  by_cases same : other.toList = word
  · subst same
    exact .inr ((Prefers.literal text).finds onward found fits)
  · refine .inl (search_word_eq_none ?_ stuck isName stops text fun taken takes =>
      same (takes_literal takes).symm)
    intro passed taken takes
    rwa [takes_literal takes]

theorem isName_sized :
    ∀ sign ∈ ["", "u"], ∀ width ∈ widths,
      ∀ c ∈ sign.toList ++ ("int".toList ++ (width.toList ++ "_t".toList)),
        Text.isNameChar c = true := by
  decide

/-- A sized integer is one word. -/
theorem isNameChar_of_takes_sizedInteger
    {passed : List Char}
    {taken : List (Nat × List Char)}
    (takes : Takes sizedInteger passed taken) :
    ∀ c ∈ passed, Text.isNameChar c = true := by
  obtain ⟨sign, isSign, width, isWidth, rfl⟩ := takes_sizedInteger takes
  exact isName_sized sign isSign width isWidth

/-- A sized integer fits as the whole word or not at all. -/
theorem search_sizedInteger_cases
    (stuck : StuckInWords onward)
    (isName : ∀ c ∈ word, Text.isNameChar c = true)
    (stops : StopsAt Text.isNameChar tail)
    (text : start.cursor.rest = word ++ tail)
    (fits : onward (start.skip word.length) = some found) :
    search Text.isWordChar turns sizedInteger onward start = none ∨
      search Text.isWordChar turns sizedInteger onward start = some found := by
  by_cases sized :
      ∃ sign ∈ ["", "u"], ∃ width ∈ widths,
        word = sign.toList ++ ("int".toList ++ (width.toList ++ "_t".toList))
  · obtain ⟨sign, isSign, width, isWidth, rfl⟩ := sized
    simp only [List.append_assoc] at text
    exact .inr ((prefers_sizedInteger isSign isWidth text).finds onward found fits)
  · exact .inl (search_word_eq_none (fun _ _ => isNameChar_of_takes_sizedInteger) stuck isName
      stops text fun taken takes => sized (takes_sizedInteger takes))

/-- Behind a type no second word of a type may follow as the name. -/
def NoSecond (tail : List Char) : Prop :=
  ∀ pair ∈ typePairs, ∀ gap behind, IsGap gap → StopsAt Text.isNameChar behind →
    tail ≠ gap ++ (pair.2.toList ++ behind)

/-- The types of two words are spelled with letters. -/
theorem isName_pairs :
    ∀ pair ∈ typePairs,
      (∀ c ∈ pair.1.toList, Text.isNameChar c = true) ∧
        pair.2.toList ≠ [] ∧ ∀ c ∈ pair.2.toList, Text.isNameChar c = true := by
  decide

/-- The types of one word are spelled with letters. -/
theorem isName_words :
    ∀ word ∈ typeWords ++ ["unsigned", "signed"],
      ∀ c ∈ word.toList, Text.isNameChar c = true := by
  decide

/-- The alternatives that a declaration has for its type. -/
def typePatterns : List Pattern := numericTypes ++ [literal "unsigned", literal "signed"]

/-- The alternatives that come before those of one word, but for one of them. -/
def pairPatterns : List Pattern :=
  [sizedInteger, literal "size_t"] ++ typePairs.map fun pair => twoWords pair.1 pair.2

/-- The types of two words are tried before the others. -/
theorem typePatterns_eq :
    typePatterns = pairPatterns ++ (typeWords.tail ++ ["unsigned", "signed"]).map literal :=
  rfl

/-- At a type of one word an alternative takes all of it or leads nowhere. -/
theorem search_typePatterns_cases
    (stuck : StuckInWords onward)
    (isName : ∀ c ∈ word, Text.isNameChar c = true)
    (stops : StopsAt Text.isNameChar tail)
    (noSecond : NoSecond tail)
    (text : start.cursor.rest = word ++ tail)
    (fits : onward (start.skip word.length) = some found) :
    ∀ pattern ∈ typePatterns,
      search Text.isWordChar turns pattern onward start = none ∨
        search Text.isWordChar turns pattern onward start = some found := by
  intro pattern member
  rw [typePatterns_eq, pairPatterns, List.mem_append, List.mem_append, List.mem_map,
    List.mem_map] at member
  have isLiteral {other : String} (known : other ∈ typeWords ++ ["unsigned", "signed"]) :=
    @search_literal_cases turns start result onward found word tail other
      (isName_words other known) stuck isName stops text fits
  rcases member with (first | ⟨pair, isPair, rfl⟩) | ⟨other, isOther, rfl⟩
  · rcases List.mem_cons.mp first with rfl | second
    · exact search_sizedInteger_cases stuck isName stops text fits
    · obtain rfl := List.mem_singleton.mp second
      exact isLiteral (by decide)
  · exact .inl (search_twoWords_eq_none (isName_pairs pair isPair).1 stuck isName stops text
      fun gap behind isGap stopsBehind _ => noSecond pair isPair gap behind isGap stopsBehind)
  · exact isLiteral (List.mem_of_mem_tail isOther)

/-- At a type of two words another pair leads nowhere. -/
theorem search_twoWords_cases
    {pair other : String × String}
    {gap : List Char}
    (isPair : pair ∈ typePairs)
    (isOther : other ∈ typePairs)
    (isGap : IsGap gap)
    (stuck : StuckInWords onward)
    (stops : StopsAt Text.isNameChar tail)
    (text : start.cursor.rest = pair.1.toList ++ (gap ++ (pair.2.toList ++ tail)))
    (enough : gap.length ≤ turns)
    (fits :
      onward (start.skip (pair.1.toList ++ (gap ++ pair.2.toList)).length) = some found) :
    search Text.isWordChar turns (twoWords other.1 other.2) onward start = none ∨
      search Text.isWordChar turns (twoWords other.1 other.2) onward start = some found := by
  obtain ⟨isNameFirst, notEmpty, isNameSecond⟩ := isName_pairs pair isPair
  obtain ⟨isNameOther, notEmptyOther, isNameLast⟩ := isName_pairs other isOther
  have begins := BeginsWord.of_word notEmpty isNameSecond tail
  by_cases same : other = pair
  · subst same
    exact .inr ((prefers_twoWords isGap begins text enough).finds onward found fits)
  · refine .inl (search_eq_none fun after passed remembered took => ?_)
    obtain ⟨between, isBetween, rfl⟩ := takes_twoWords took.takes
    have whole := took.passes.rest
    rw [text, List.append_assoc, List.append_assoc] at whole
    obtain ⟨sameFirst, behindFirst⟩ :=
      stretch_unique isNameFirst (isGap.stops _) isNameOther (isBetween.stops _) whole
    obtain ⟨-, behindGap⟩ :=
      stretch_unique isGap.blank begins.noBlank isBetween.blank
        (BeginsWord.of_word notEmptyOther isNameLast _).noBlank behindFirst
    obtain ⟨more, sameSecond, rest⟩ := exists_of_stretch stops isNameLast behindGap
    cases more with
    | nil =>
        rw [List.append_nil] at sameSecond
        exact absurd
          (Prod.ext (String.toList_inj.mp sameFirst.symm) (String.toList_inj.mp sameSecond.symm))
          same
    | cons c more =>
        refine stuck after ⟨c, ?_, isNameSecond c (by simp [sameSecond])⟩
        rw [rest]
        rfl

/-- The first of two words is no type of its own with digits in it. -/
theorem first_ne_of_pair :
    ∀ pair ∈ typePairs,
      pair.1.toList ≠ "size_t".toList ∧
        ∀ sign ∈ ["", "u"], ∀ width ∈ widths,
          pair.1.toList ≠ sign.toList ++ ("int".toList ++ (width.toList ++ "_t".toList)) := by
  decide

/-- At a type of two words those before the words alone take all of it or lead nowhere. -/
theorem search_pairPatterns_cases
    {pair : String × String}
    {gap : List Char}
    (isPair : pair ∈ typePairs)
    (isGap : IsGap gap)
    (stuck : StuckInWords onward)
    (stops : StopsAt Text.isNameChar tail)
    (text : start.cursor.rest = pair.1.toList ++ (gap ++ (pair.2.toList ++ tail)))
    (enough : gap.length ≤ turns)
    (fits :
      onward (start.skip (pair.1.toList ++ (gap ++ pair.2.toList)).length) = some found) :
    ∀ pattern ∈ pairPatterns,
      search Text.isWordChar turns pattern onward start = none ∨
        search Text.isWordChar turns pattern onward start = some found := by
  intro pattern member
  have isName := (isName_pairs pair isPair).1
  obtain ⟨notSize, notSized⟩ := first_ne_of_pair pair isPair
  rw [pairPatterns, List.mem_append, List.mem_map] at member
  rcases member with isFirst | ⟨other, isOther, rfl⟩
  · left
    rcases List.mem_cons.mp isFirst with rfl | isSecond
    · refine search_word_eq_none (fun _ _ => isNameChar_of_takes_sizedInteger) stuck isName
        (isGap.stops _) text fun taken takes => ?_
      obtain ⟨sign, isSign, width, isWidth, same⟩ := takes_sizedInteger takes
      exact notSized sign isSign width isWidth same
    · obtain rfl := List.mem_singleton.mp isSecond
      refine search_word_eq_none ?_ stuck isName (isGap.stops _) text fun taken takes =>
        notSize (takes_literal takes)
      intro passed taken takes
      rw [takes_literal takes]
      decide
  · exact search_twoWords_cases isPair isOther isGap stuck stops text enough fits

/-- The pattern of types goes over all of a type, if it can go on from there. -/
theorem search_types
    (isType : IsType type)
    (stuck : StuckInWords onward)
    (stops : StopsAt Text.isNameChar tail)
    (noSecond : NoSecond tail)
    (text : start.cursor.rest = type ++ tail)
    (enough : type.length ≤ turns)
    (fits : onward (start.skip type.length) = some found) :
    search Text.isWordChar turns (any typePatterns) onward start = some found := by
  have notEmpty : typePatterns ≠ [] := List.cons_ne_nil _ _
  rw [search_any notEmpty]
  cases isType with
  | @sized sign width isSign isWidth =>
      have isName := isName_sized sign isSign width isWidth
      have here :=
        @search_typePatterns_cases turns start _ onward found _ tail stuck isName stops noSecond
          text fits
      simp only [List.append_assoc] at text
      exact findSome?_of_agree here (List.mem_append_left _ List.mem_cons_self)
        ((prefers_sizedInteger isSign isWidth text).finds onward found fits)
  | @word word member =>
      have isName := isName_words word (List.mem_append_left _ member)
      have known : literal word ∈ typePatterns := by
        rw [typePatterns_eq]
        rcases List.mem_cons.mp member with rfl | member
        · exact List.mem_append_left _ (List.mem_append_left _ (by simp))
        · exact List.mem_append_right _ (List.mem_map_of_mem (List.mem_append_left _ member))
      exact findSome?_of_agree (search_typePatterns_cases stuck isName stops noSecond text fits)
        known ((Prefers.literal text).finds onward found fits)
  | @pair pair gap member isGap =>
      simp only [List.append_assoc] at text
      simp only [List.length_append] at enough
      have enoughGap : gap.length ≤ turns := by omega
      obtain ⟨isName, notEmpty, isNameSecond⟩ := isName_pairs pair member
      have begins := BeginsWord.of_word notEmpty isNameSecond tail
      -- The patterns of two words come before those of the first word alone.
      have front := search_pairPatterns_cases member isGap stuck stops text enoughGap fits
      have own : twoWords pair.1 pair.2 ∈ pairPatterns :=
        List.mem_append_right _ (List.mem_map_of_mem member)
      have goes := findSome?_of_agree front own
        ((prefers_twoWords isGap begins text enoughGap).finds onward found fits)
      rw [typePatterns_eq, List.findSome?_append, goes, Option.some_or]

end Search

end LedSketch.Sketch
