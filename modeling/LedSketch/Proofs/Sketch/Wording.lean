import LedSketch.Proofs.Sketch.Declarations

namespace LedSketch

/-!
# Rules that find nothing in plain words

A text of words, blanks and some marks has nothing for most of the rules: some need a
character that is none of these, and some begin at a word of a kind that does not occur.
-/

theorem Text.not_isDigit_of_isBlank
    {c : Char}
    (isBlank : isBlank c = true) :
    isDigit c = false := by
  have noName := Script.not_isNameChar_of_isBlank isBlank
  unfold isDigit
  split
  · by_contra digit
    rw [Bool.not_eq_false] at digit
    rw [Script.Nominal.isDigit c digit] at noName
    contradiction
  · next notAscii =>
      have apart :
          ∀ blanks ∈ blankRanges, ∀ digits ∈ digitRanges,
            blanks.2 < digits.1 ∨ digits.2 < blanks.1 := by
        decide
      rw [Text.isBlank, if_neg notAscii, inRanges, List.any_eq_true] at isBlank
      obtain ⟨blanks, isRange, within⟩ := isBlank
      rw [inRanges, List.any_eq_false]
      intro digits isDigits
      have disjoint := apart blanks isRange digits isDigits
      simp only [Bool.and_eq_true, decide_eq_true_eq] at within ⊢
      omega

namespace Sketch

open Pattern Vocabulary Catalogue
open Script (StopsAt)

/-- The marks of a function header. -/
def headerMarks : List Char := ['(', ')', ',', '*', '&', '[', ']', '\x7b', '\x7d']

/-- Whether a character may stand between the words of a function header. -/
def isBetween (c : Char) : Bool := Text.isBlank c || headerMarks.contains c

/-- Whether a character has a meaning for rules and does not occur in function headers. -/
def isForeign (c : Char) : Bool :=
  ['"', '\'', '/', '#', '+', '|', ':', '>', ';', '='].contains c

/-- What stands between words is a blank or one of the marks. -/
theorem isBetween_cases
    {c : Char}
    (between : isBetween c = true) :
    Text.isBlank c = true ∨ c ∈ headerMarks := by
  simpa [isBetween] using between

/-- The marks of headers belong to no name. -/
theorem headerMarks_cases :
    ∀ c ∈ headerMarks, Text.isNameChar c = false ∧ Text.isDigit c = false := by
  decide

/-- What stands between words belongs to no name. -/
theorem not_isNameChar_of_isBetween
    {c : Char}
    (between : isBetween c = true) :
    Text.isNameChar c = false := by
  rcases isBetween_cases between with isBlank | isMark
  · exact Script.not_isNameChar_of_isBlank isBlank
  · exact (headerMarks_cases c isMark).1

theorem not_isDigit_of_isBetween
    {c : Char}
    (between : isBetween c = true) :
    Text.isDigit c = false := by
  rcases isBetween_cases between with isBlank | isMark
  · exact Text.not_isDigit_of_isBlank isBlank
  · exact (headerMarks_cases c isMark).2

/-- Foreign characters neither belong to names nor stand between words. -/
theorem isForeign_cases
    {c : Char}
    (foreign : isForeign c = true) :
    Text.isNameChar c = false ∧ isBetween c = false := by
  have known :
      ∀ c ∈ ['"', '\'', '/', '#', '+', '|', ':', '>', ';', '='],
        Text.isNameChar c = false ∧ isBetween c = false := by
    decide
  exact known c (List.contains_iff_mem.mp foreign)

/-- A text of words, which have a property, and of what may stand between words. -/
inductive Worded (holds : List Char → Prop) : List Char → Prop where
  | finish : Worded holds []
  | between
      {c : Char}
      {rest : List Char}
      (isBetween : isBetween c = true)
      (onward : Worded holds rest) :
      Worded holds (c :: rest)
  | word
      {word rest : List Char}
      (notEmpty : word ≠ [])
      (isName : ∀ c ∈ word, Text.isNameChar c = true)
      (hasProperty : holds word)
      (ends : ∀ c ∈ rest.head?, isBetween c = true)
      (onward : Worded holds rest) :
      Worded holds (word ++ rest)

namespace Worded

variable {holds : List Char → Prop} {text : List Char}

/-- A worded text has no foreign character. -/
theorem not_isForeign
    (worded : Worded holds text)
    {c : Char}
    (member : c ∈ text) :
    isForeign c = false := by
  by_contra foreign
  rw [Bool.not_eq_false] at foreign
  obtain ⟨noName, notBetween⟩ := isForeign_cases foreign
  induction worded with
  | finish => contradiction
  | between isBetween onward inductionHypothesis =>
      rcases List.mem_cons.mp member with rfl | member
      · rw [notBetween] at isBetween
        contradiction
      · exact inductionHypothesis member
  | word notEmpty isName hasProperty ends onward inductionHypothesis =>
      rcases List.mem_append.mp member with inWord | member
      · rw [isName c inWord] at noName
        contradiction
      · exact inductionHypothesis member

/-- A worded text has no literal and no comment. -/
theorem plain
    (worded : Worded holds text) :
    ∀ c ∈ text, isPlain c = true := by
  intro c member
  have notForeign := worded.not_isForeign member
  by_contra special
  have isForeign : isForeign c = true := by
    simp only [isPlain, isUnquoted, ne_eq, Bool.and_eq_true, decide_eq_true_eq, not_and_or,
      not_not] at special
    rcases special with (rfl | rfl) | rfl <;> rfl
  rw [notForeign] at isForeign
  contradiction

end Worded

/-- The rules that need a character that function headers do not have. -/
def foreignRules : List Rule :=
  [comments, defineConstants, directives, frequencySuffix, frequencyPrefix, staticHelpers, arrows,
    prototypes, arrayInitialisers, arrayDeclarations, stripAssignments, stripDeclarations,
    buttonAllocations, buttonDeclarations]

/-- A pattern of a foreign mark needs a foreign character. -/
theorem needs_mark
    {wanted : Char}
    (foreign : isForeign wanted = true) :
    Needs isForeign (mark wanted) :=
  .char fun _ same => of_decide_eq_true same ▸ foreign

theorem needs_lineLiteral
    {quote : Char}
    (foreign : isForeign quote = true) :
    Needs isForeign (lineLiteral quote) :=
  .all (needs_mark foreign) List.mem_cons_self

/-- A comment needs a foreign character. -/
theorem needs_comments : Needs isForeign comments.pattern := by
  refine .either (.left (.literal rfl)) (.either ?_ (.either ?_ ?_))
  · exact .all (.literal rfl) List.mem_cons_self
  · exact needs_lineLiteral rfl
  · exact needs_lineLiteral rfl

theorem needs_frequencyMark : Needs isForeign (oneOf ['+', '|']) := by
  refine .char fun c isMark => ?_
  have known : ∀ c ∈ ['+', '|'], isForeign c = true := by decide
  exact known c (List.contains_iff_mem.mp isMark)

/-- Each of these rules needs a foreign character. -/
theorem needs_of_mem_foreignRules :
    ∀ rule ∈ foreignRules, Needs isForeign rule.pattern := by
  have ofMark {patterns : List Pattern} (wanted : Char)
      (foreign : isForeign wanted = true)
      (member : mark wanted ∈ patterns) :
      Needs isForeign (all patterns) :=
    .all (needs_mark foreign) member
  simp only [foreignRules, List.forall_mem_cons, List.not_mem_nil, false_imp_iff, implies_true,
    and_true]
  refine ⟨needs_comments, ofMark '#' rfl ?_, ofMark '#' rfl ?_, .all needs_frequencyMark ?_,
    .all needs_frequencyMark ?_, .all (.literal (rfl : "::".toList.any isForeign = true)) ?_,
    .literal rfl, ofMark ';' rfl ?_, ofMark '=' rfl ?_, ofMark ';' rfl ?_, ofMark ';' rfl ?_,
    ofMark ';' rfl ?_, ofMark ';' rfl ?_, ofMark ';' rfl ?_⟩
  all_goals simp

/-- These rules leave a text of words as it is. -/
theorem apply_foreignRule
    {holds : List Char → Prop}
    {text : List Char}
    (worded : Worded holds text) :
    ∀ rule ∈ foreignRules, (rule.apply text).1 = text :=
  fun rule member =>
    rule.apply_of_needs worded.plain (needs_of_mem_foreignRules rule member) fun _ =>
      worded.not_isForeign

/-- Whether a word is no color order and, if it begins with a digit, is a plain number. -/
def IsOrdinary (word : List Char) : Prop :=
  ¬ "NEO_".toList <+: word ∧
    ((∃ c ∈ word.head?, c.isDigit = true) → ∀ c ∈ word, c.isDigit = true)

section EdgeRules

variable {rule : Rule} {turns : Nat} {before : Option Char}
  {word rest text : List Char} {offset : Nat}

/-- A match at a word takes a part of it if the pattern takes nothing between words. -/
theorem exists_of_takes
    {pattern : Pattern}
    {passed behind : List Char}
    {taken : List (Nat × List Char)}
    (takes : Takes pattern passed taken)
    (onlyWords : ∀ c, isBetween c = true → pattern.mayTake c = false)
    (ends : ∀ c ∈ rest.head?, isBetween c = true)
    (whole : word ++ rest = passed ++ behind) :
    ∃ more, word = passed ++ more := by
  have stops : StopsAt pattern.mayTake rest := fun c isHead => onlyWords c (ends c isHead)
  obtain ⟨more, split, -⟩ := exists_of_stretch stops (fun c => takes.mayTake) whole
  exact ⟨more, split⟩

/-- A rule for words leaves a text as it is if it matches at none of its words. -/
theorem Worded.yields
    {holds : List Char → Prop}
    (worded : Worded holds text)
    (edged : rule.pattern.IsEdged)
    (onlyWords : ∀ c, isBetween c = true → rule.pattern.mayTake c = false)
    (unmatched :
      ∀ word rest before offset,
        (∀ c ∈ word, Text.isNameChar c = true) → holds word →
        (∀ c ∈ rest.head?, isBetween c = true) →
          rule.pattern.matchAt? turns ⟨before, word ++ rest, offset⟩ = none) :
    rule.Yields turns before text text := by
  induction worded generalizing before with
  | finish => exact .nil
  | @between c rest isBetween later inductionHypothesis =>
      refine .plain ((Worded.between isBetween later).plain c List.mem_cons_self)
        (fun offset => matchAt?_eq_none_of_mayStart rfl ?_) inductionHypothesis
      by_contra starts
      have takes := mayTake_of_mayStart (Bool.not_eq_false _ ▸ starts)
      rw [onlyWords c isBetween] at takes
      contradiction
  | word notEmpty isName hasProperty ends later inductionHypothesis =>
      exact .word edged notEmpty isName
        (fun offset => unmatched _ _ _ offset isName hasProperty ends)
        fun before => inductionHypothesis

/-- A color order takes nothing that stands between words. -/
theorem mayTake_colorOrders
    (c : Char)
    (between : isBetween c = true) :
    colorOrders.pattern.mayTake c = false := by
  by_contra takes
  have known : ∀ c ∈ "NEO_RGBW".toList, isBetween c = false := by decide
  have member : c ∈ "NEO_RGBW".toList := by
    simp [colorOrders, all, any, words, Pattern.literal, mayTake] at takes ⊢
    tauto
  rw [known c member] at between
  contradiction

/-- An integer with a suffix takes nothing that stands between words. -/
theorem mayTake_integerSuffixes
    (c : Char)
    (between : isBetween c = true) :
    integerSuffixes.pattern.mayTake c = false := by
  have noDigit := not_isDigit_of_isBetween between
  have noName := not_isNameChar_of_isBetween between
  have noHex : Text.isHexDigit c = false := by
    by_contra hex
    rw [Script.Nominal.isHexDigit c (Bool.not_eq_false _ ▸ hex)] at noName
    contradiction
  have known : ∀ c ∈ "0xXuUlL".toList, isBetween c = false := by decide
  by_contra takes
  have member : c ∈ "0xXuUlL".toList := by
    simp [integerSuffixes, all, mayTake, mark, oneOf, Pattern.optional, oneOrMore, noDigit,
      noHex] at takes ⊢
    tauto
  rw [known c member] at between
  contradiction

/-- No ordinary word is a color order. -/
theorem matchAt?_colorOrders
    (ordinary : IsOrdinary word)
    (ends : ∀ c ∈ rest.head?, isBetween c = true) :
    colorOrders.pattern.matchAt? turns ⟨before, word ++ rest, offset⟩ = none := by
  refine matchAt?_eq_none fun passed taken behind takes _ whole => ?_
  obtain ⟨more, rfl⟩ := exists_of_takes takes mayTake_colorOrders ends whole
  obtain ⟨_, _, _, _, ⟨rfl, -⟩, takesRest, rfl, -⟩ := takes_all_cons takes
  obtain ⟨front, back, _, _, takesMark, -, rfl, -⟩ := takes_all_cons takesRest
  rw [takes_literal takesMark] at ordinary
  exact ordinary.1 ⟨back ++ more, by simp⟩

/-- Whether a character is part of a type suffix. -/
def isSuffix (c : Char) : Bool := ['u', 'U', 'l', 'L'].contains c

/-- An integer with a suffix needs the letter of its suffix. -/
theorem needs_integerSuffixes : Needs isSuffix integerSuffixes.pattern := by
  have unsignedMark : Needs isSuffix (oneOf ['u', 'U']) := by
    refine .char fun c isMark => ?_
    have known : ∀ c ∈ ['u', 'U'], isSuffix c = true := by decide
    exact known c (List.contains_iff_mem.mp isMark)
  have longMark : Needs isSuffix (oneOf ['l', 'L']) := by
    refine .char fun c isMark => ?_
    have known : ∀ c ∈ ['l', 'L'], isSuffix c = true := by decide
    exact known c (List.contains_iff_mem.mp isMark)
  have suffix :
      Needs isSuffix
        (.either
          (.seq (oneOf ['u', 'U']) (Pattern.optional (.seq (oneOf ['l', 'L'])
            (Pattern.optional (oneOf ['l', 'L'])))))
          (all [oneOf ['l', 'L'], Pattern.optional (oneOf ['l', 'L']),
            Pattern.optional (oneOf ['u', 'U'])])) :=
    .either (.left unsignedMark) (.all longMark List.mem_cons_self)
  exact .all suffix (by simp)

/-- An ordinary word has no type suffix. -/
theorem matchAt?_integerSuffixes
    (isName : ∀ c ∈ word, Text.isNameChar c = true)
    (ordinary : IsOrdinary word)
    (ends : ∀ c ∈ rest.head?, isBetween c = true) :
    integerSuffixes.pattern.matchAt? turns ⟨before, word ++ rest, offset⟩ = none := by
  refine matchAt?_eq_none fun passed taken behind takes notEmpty whole => ?_
  obtain ⟨more, rfl⟩ := exists_of_takes takes mayTake_integerSuffixes ends whole
  obtain ⟨first, others, rfl⟩ := List.exists_cons_of_ne_nil notEmpty
  have isDigit : Text.isDigit first = true := by
    have starts := takes.mayStart
    by_contra noDigit
    simp [integerSuffixes, all, mayStart, mayBeEmpty, mark, oneOrMore, noDigit] at starts
    subst starts
    exact noDigit rfl
  rw [Text.isDigit, if_pos (Script.range_of_isNameChar (isName first (by simp))).2] at isDigit
  obtain ⟨c, member, suffix⟩ := needs_integerSuffixes _ _ takes
  have plain := ordinary.2 ⟨first, rfl, isDigit⟩ c (List.mem_append_left more member)
  have known : ∀ c ∈ ['u', 'U', 'l', 'L'], c.isDigit = false := by decide
  rw [known c (List.contains_iff_mem.mp suffix)] at plain
  contradiction

/-- No word of a text of ordinary words is changed by the rules for constants. -/
theorem apply_edgeRules
    (worded : Worded IsOrdinary text) :
    (colorOrders.apply text).1 = text ∧ (integerSuffixes.apply text).1 = text :=
  ⟨Rule.apply_of_yields (worded.yields .wordEdge mayTake_colorOrders
      fun _ _ _ _ _ ordinary ends => matchAt?_colorOrders ordinary ends),
    Rule.apply_of_yields (worded.yields .wordEdge mayTake_integerSuffixes
      fun _ _ _ _ isName ordinary ends => matchAt?_integerSuffixes isName ordinary ends)⟩

end EdgeRules

end Sketch

end LedSketch
