import LedSketch.Proofs.Sketch.Erasure

namespace LedSketch.Sketch

/-!
# Declarations without types

The rule that erases types leaves a keyword and the name of a declaration, whatever stands in
front of the name.  Line ends between the words go behind the name.
-/

open Pattern Vocabulary Catalogue
open Script (StopsAt)

section Plain

variable {text : List Char} {texts : List String} {word : String}

theorem IsGap.plain
    (isGap : IsGap text) :
    ∀ c ∈ text, isPlain c = true :=
  fun c member => isPlain_of_isBlank (isGap.blank c member)

theorem AreApart.plain
    (areApart : AreApart texts)
    (member : word ∈ texts) :
    ∀ c ∈ word.toList, isPlain c = true :=
  fun c inWord => isPlain_of_isNameChar (areApart.isName word member c inWord)

theorem AreQualifiers.plain
    (areQualifiers : AreQualifiers text) :
    ∀ c ∈ text, isPlain c = true := by
  induction areQualifiers with
  | none => exact nofun
  | more member isGap _ inductionHypothesis =>
      exact List.forall_mem_append.mpr ⟨areApart_qualifiers.plain member,
        List.forall_mem_append.mpr ⟨isGap.plain, inductionHypothesis⟩⟩

theorem IsSign.plain
    (isSign : IsSign text) :
    ∀ c ∈ text, isPlain c = true := by
  cases isSign with
  | none => exact nofun
  | word member isGap =>
      exact List.forall_mem_append.mpr ⟨areApart_signs.plain member, isGap.plain⟩

theorem IsType.plain
    (isType : IsType text) :
    ∀ c ∈ text, isPlain c = true := by
  cases isType with
  | @sized sign width isSign isWidth =>
      exact fun c member => isPlain_of_isNameChar (isName_sized sign isSign width isWidth c member)
  | @word word member =>
      exact fun c inWord =>
        isPlain_of_isNameChar (isName_words word (List.mem_append_left _ member) c inWord)
  | @pair pair gap member isGap =>
      obtain ⟨isNameFirst, -, isNameSecond⟩ := isName_pairs pair member
      exact List.forall_mem_append.mpr
        ⟨fun c inFirst => isPlain_of_isNameChar (isNameFirst c inFirst),
          List.forall_mem_append.mpr
            ⟨isGap.plain, fun c inSecond => isPlain_of_isNameChar (isNameSecond c inSecond)⟩⟩

theorem IsLink.plain
    (isLink : IsLink text) :
    ∀ c ∈ text, isPlain c = true := by
  cases isLink with
  | gap isGap => exact isGap.plain
  | @mark front back mark isMark blankFront blankBack =>
      have known : ∀ mark ∈ ['*', '&'], isPlain mark = true := by decide
      exact List.forall_mem_append.mpr ⟨fun c member => isPlain_of_isBlank (blankFront c member),
        List.forall_mem_cons.mpr
          ⟨known mark isMark, fun c member => isPlain_of_isBlank (blankBack c member)⟩⟩

end Plain

namespace Declaration

variable (declaration : Declaration)

theorem plain : ∀ c ∈ declaration.text, isPlain c = true := by
  simp only [text, List.forall_mem_append]
  exact ⟨declaration.areQualifiers.plain, declaration.isSign.plain, declaration.isType.plain,
    declaration.isLink.plain,
    fun c member => isPlain_of_isNameChar (declaration.isName.isName c member)⟩

/-- The keyword and the name that are left of a declaration. -/
def erased : List Char := "let ".toList ++ declaration.name

/-- The line ends between the words of a declaration. -/
def lineEnds : List Char := declaration.text.filter (· = '\n')

/-- What is left of a declaration has all of its line ends behind the name. -/
theorem keepLines_erased :
    keepLines declaration.text declaration.erased = declaration.erased ++ declaration.lineEnds := by
  have keyword : "let ".toList.count '\n' = 0 := rfl
  have none : declaration.erased.count '\n' = 0 := by
    rw [erased, List.count_append, keyword, List.count_eq_zero.mpr declaration.isName.oneLine]
  have all : declaration.lineEnds = List.replicate (declaration.text.count '\n') '\n' := by
    rw [lineEnds, ← List.filter_beq]
    exact List.filter_congr fun c _ => (beq_eq_decide c '\n').symm
  rw [keepLines, none, Nat.sub_zero, all]

theorem lineEnds_of_oneLine
    (oneLine : '\n' ∉ declaration.text) :
    declaration.lineEnds = [] := by
  refine List.filter_eq_nil_iff.mpr fun c member same => oneLine ?_
  rwa [← of_decide_eq_true same]

variable {turns : Nat} {before : Option Char} {rest out : List Char}

/-- A declaration is erased wherever it does not go on from a word or into another one. -/
theorem yields
    (outside : isWordAt Text.isWordChar before = false)
    (stops : StopsAt Text.isWordChar rest)
    (enough : declaration.text.length ≤ turns)
    (onward : ∀ before, declarators.Yields turns before rest out) :
    declarators.Yields turns before (declaration.text ++ rest)
      (declaration.erased ++ (declaration.lineEnds ++ out)) := by
  rw [← List.append_assoc, ← keepLines_erased]
  refine .replaced (fun offset => ?_) declaration.plain onward
  obtain ⟨found, isMatch, behind, isName⟩ := declaration.matchAt?_text outside stops enough
  refine ⟨found, isMatch, behind, fun depth => ?_⟩
  have notCast : (castWords.map String.toList).contains declaration.name = false := by
    simpa using declaration.isNew
  simp only [declarators, Replacement.apply?, eraseType, isName, notCast, Bool.false_eq_true,
    if_false, erased]

/--
Of a declaration that ends with a semicolon the rule leaves the keyword and the name.  Line ends
between the words, if there are any, stay between the name and the semicolon.
-/
theorem declaration_erased :
    (declarators.apply (declaration.text ++ [';'])).1 =
        "let ".toList ++ declaration.name ++ declaration.lineEnds ++ [';'] ∧
      ('\n' ∉ declaration.text →
        (declarators.apply (declaration.text ++ [';'])).1 =
          "let ".toList ++ declaration.name ++ [';']) := by
  have atEnd (before : Option Char) :
      declarators.Yields (declaration.text ++ [';']).length before [';'] [';'] :=
    .plain (by decide) (fun _ => matchAt?_eq_none_of_mayStart rfl (by decide)) .nil
  have stops : StopsAt Text.isWordChar [';'] := by
    rintro c ⟨⟩
    decide
  have enough : declaration.text.length ≤ (declaration.text ++ [';']).length := by simp
  have whole := Rule.apply_of_yields (declaration.yields rfl stops enough atEnd)
  refine ⟨by simpa [erased] using whole, fun oneLine => ?_⟩
  simpa [erased, declaration.lineEnds_of_oneLine oneLine] using whole

/-- A declaration whose type and name together begin as a type of two words. -/
def longest : Declaration where
  qualifiers := "static".toList ++ ([' '] ++ ("const".toList ++ (['\t', ' '] ++ [])))
  sign := "unsigned".toList ++ [' ']
  type := "long".toList
  link := ['\t']
  name := "longest".toList
  areQualifiers :=
    .more (by decide) ⟨by decide, by decide⟩ (.more (by decide) ⟨by decide, by decide⟩ .none)
  isSign := .word (by decide) ⟨by decide, by decide⟩
  isType := .word (by decide)
  isLink := .gap ⟨by decide, by decide⟩
  isName := ⟨⟨'l', rfl, rfl⟩, by decide⟩
  isNew := by decide

theorem declaration_erased_of_longest :
    longest.text ++ [';'] = "static const\t unsigned long\tlongest;".toList ∧
      '\n' ∉ longest.text ∧
        (declarators.apply (longest.text ++ [';'])).1 = "let longest;".toList :=
  ⟨rfl, by decide, longest.declaration_erased.2 (by decide)⟩

/-- The mark of a pointer ends the type, and a line end in front of it is kept. -/
example : (declarators.apply "short\n*int_count;".toList).1 = "let int_count\n;".toList := by
  decide +kernel

end Declaration

end LedSketch.Sketch
