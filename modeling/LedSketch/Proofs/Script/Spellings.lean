import LedSketch.Script.Tokenizer
import Mathlib.Data.List.TakeDrop
import Mathlib.Data.List.TakeWhile

namespace LedSketch.Script

/-!
# Spellings of tokens

Where a token ends depends on the first character behind it at most, unless the token is
a number that an exponent could follow.  So the text behind a token can be exchanged for
one that begins in the same way, or with a blank, or not at all.
-/

/--
What may be put behind a token in the place of the text behind it: nothing, something
that begins with a blank, or something that begins with the same character.
-/
def Follows (behind after : List Char) : Prop :=
  ∀ c, after.head? = some c → Text.isBlank c = true ∨ behind.head? = some c

namespace Follows

variable {behind after : List Char}

/-- The end of a text follows everything. -/
theorem nil : Follows behind [] := fun _ same => nomatch same

/-- A blank follows everything. -/
theorem blank
    {c : Char}
    (isBlank : Text.isBlank c = true)
    (behind after : List Char) :
    Follows behind (c :: after) := by
  intro other same
  cases same
  exact .inl isBlank

/-- More of the spelling stands in front of both texts. -/
theorem append
    (follows : Follows behind after)
    (spelled : List Char) :
    Follows (spelled ++ behind) (spelled ++ after) := by
  cases spelled with
  | nil => exact follows
  | cons c spelled => exact fun _ => .inr

end Follows

/-- Whether a text does not go on with a character of a class. -/
def StopsAt
    (test : Char → Bool)
    (text : List Char) :
    Prop :=
  ∀ c, text.head? = some c → test c = false

namespace StopsAt

variable {test : Char → Bool} {behind after : List Char}

/-- At the end of a text every spelling stops. -/
theorem nil : StopsAt test [] := fun _ none => nomatch none

/-- A spelling that stops in front of one text stops in front of one that follows like it. -/
theorem follow
    (stops : StopsAt test behind)
    (follows : Follows behind after)
    (noBlank : ∀ c, Text.isBlank c = true → test c = false) :
    StopsAt test after := by
  intro c first
  rcases follows c first with isBlank | same
  · exact noBlank c isBlank
  · exact stops c same

/-- What is left begins with another character. -/
theorem dropWhile
    (test : Char → Bool)
    (text : List Char) :
    StopsAt test (text.dropWhile test) := by
  intro c first
  have refused := List.head?_dropWhile_not test text
  rw [first] at refused
  simpa using refused

theorem startsWithDigit (stops : StopsAt Char.isDigit behind) :
    Lexeme.startsWithDigit behind = false := by
  cases behind with
  | nil => rfl
  | cons c behind => exact stops c rfl

end StopsAt

/-- A span of a class of characters ends where the text does not go on with one. -/
theorem span_append
    {test : Char → Bool}
    {spelled behind : List Char}
    (all : ∀ c ∈ spelled, test c = true)
    (stops : StopsAt test behind) :
    (spelled ++ behind).span test = (spelled, behind) := by
  have taken : behind.takeWhile test = [] ∧ behind.dropWhile test = behind := by
    cases behind with
    | nil => exact ⟨rfl, rfl⟩
    | cons c behind => simp [stops c rfl]
  simp [List.span_eq_takeWhile_dropWhile, List.takeWhile_append_of_pos all,
    List.dropWhile_append_of_pos all, taken]

/-- A spelling is dropped whole where it stops. -/
theorem dropWhile_append
    {test : Char → Bool}
    {spelled behind : List Char}
    (all : ∀ c ∈ spelled, test c = true)
    (stops : StopsAt test behind) :
    (spelled ++ behind).dropWhile test = behind := by
  have split := span_append all stops
  rw [List.span_eq_takeWhile_dropWhile] at split
  exact congrArg Prod.snd split

/-- A text is what a span takes of it, and what it leaves. -/
theorem span_cases
    (test : Char → Bool)
    (text : List Char) :
    ∃ spelled behind,
      text = spelled ++ behind ∧ text.span test = (spelled, behind) ∧
        (∀ c ∈ spelled, test c = true) ∧ StopsAt test behind :=
  ⟨text.takeWhile test, text.dropWhile test, List.takeWhile_append_dropWhile.symm,
    List.span_eq_takeWhile_dropWhile .., fun _ => List.mem_takeWhile_imp,
    .dropWhile test text⟩

/-- The letters are those of two ranges of code points. -/
theorem isAlpha_iff (c : Char) :
    c.isAlpha = true ↔
      (65 ≤ c.toNat ∧ c.toNat ≤ 90) ∨ (97 ≤ c.toNat ∧ c.toNat ≤ 122) := by
  have ranges :
      c.isAlpha =
        (decide (c.val ≥ 'A'.val ∧ c.val ≤ 'Z'.val) ||
          (decide (c.val ≥ 'a'.val) && decide (c.val ≤ 'z'.val))) :=
    rfl
  simp only [ranges, ge_iff_le, UInt32.le_iff_toNat_le, Bool.or_eq_true, Bool.and_eq_true,
    decide_eq_true_eq]
  rfl

/-- The code points of the characters of names. -/
theorem range_of_isNameChar
    {c : Char}
    (isName : Text.isNameChar c = true) :
    48 ≤ c.toNat ∧ c.toNat < 128 := by
  simp only [Text.isNameChar, Char.isAlphanum, isAlpha_iff, Char.isDigit_iff_toNat,
    Bool.or_eq_true, decide_eq_true_eq] at isName
  rcases isName with ((upper | lower) | digit) | underscore
  · omega
  · omega
  · have range : 48 ≤ c.toNat ∧ c.toNat ≤ 57 := digit
    omega
  · subst underscore
    decide

/-- A blank is no part of a name. -/
theorem not_isNameChar_of_isBlank
    {c : Char}
    (isBlank : Text.isBlank c = true) :
    Text.isNameChar c = false := by
  by_contra isName
  rw [Bool.not_eq_false] at isName
  have codePoint := range_of_isNameChar isName
  simp only [Text.isBlank, if_pos codePoint.2, Bool.or_eq_true, Bool.and_eq_true,
    decide_eq_true_eq] at isBlank
  rcases isBlank with rfl | control
  · revert codePoint
    decide
  · omega

/-- Whether a class holds characters of names only. -/
def Nominal (test : Char → Bool) : Prop :=
  ∀ c, test c = true → Text.isNameChar c = true

namespace Nominal

variable {test : Char → Bool}

/-- A blank is no character of a number. -/
theorem noBlank
    (nominal : Nominal test)
    (c : Char)
    (isBlank : Text.isBlank c = true) :
    test c = false := by
  by_contra accepted
  rw [Bool.not_eq_false] at accepted
  have isName := nominal c accepted
  rw [not_isNameChar_of_isBlank isBlank] at isName
  contradiction

theorem isDigit : Nominal Char.isDigit := by
  intro c digit
  simp [Text.isNameChar, Char.isAlphanum, digit]

theorem isHexDigit : Nominal Text.isHexDigit := by
  intro c digit
  simp only [Text.isHexDigit, Bool.or_eq_true, Bool.and_eq_true, decide_eq_true_eq,
    Char.le_def, UInt32.le_iff_toNat_le] at digit
  simp only [Text.isNameChar, Char.isAlphanum, isAlpha_iff, Bool.or_eq_true,
    decide_eq_true_eq]
  rcases digit with (digit | lower) | upper
  · exact .inl (.inr digit)
  · have range : 97 ≤ c.toNat ∧ c.toNat ≤ 102 := lower
    exact .inl (.inl (.inr (by omega)))
  · have range : 65 ≤ c.toNat ∧ c.toNat ≤ 70 := upper
    exact .inl (.inl (.inl (by omega)))

theorem isBinaryDigit : Nominal Lexeme.isBinaryDigit := by
  intro c digit
  simp only [Lexeme.isBinaryDigit, Bool.or_eq_true, decide_eq_true_eq] at digit
  rcases digit with rfl | rfl <;> decide

theorem isIntSuffix : Nominal Lexeme.isIntSuffix := by
  intro c suffix
  simp only [Lexeme.isIntSuffix, Bool.or_eq_true, decide_eq_true_eq] at suffix
  rcases suffix with ((rfl | rfl) | rfl) | rfl <;> decide

theorem isFloatSuffix : Nominal Lexeme.isFloatSuffix := by
  intro c suffix
  simp only [Lexeme.isFloatSuffix, Bool.or_eq_true, decide_eq_true_eq] at suffix
  rcases suffix with ((rfl | rfl) | rfl) | rfl <;> decide

end Nominal

namespace Lexeme

section Numbers

/-- A character that a number may be spelled with. -/
def isNumberChar (c : Char) : Bool :=
  Text.isNameChar c || c = '.' || c = '+' || c = '-'

theorem isNumberChar_of_isNameChar
    {c : Char}
    (isName : Text.isNameChar c = true) :
    isNumberChar c = true := by
  simp [isNumberChar, isName]

/-- A sign is a plus, a minus or missing. -/
theorem splitSign_cases (text : List Char) :
    ∃ sign behind,
      text = sign ++ behind ∧ splitSign text = (sign, behind) ∧
        (sign = [] ∨ sign = ['+'] ∨ sign = ['-']) := by
  fun_cases splitSign text with
  | case1 behind => exact ⟨['+'], behind, rfl, rfl, .inr (.inl rfl)⟩
  | case2 behind => exact ⟨['-'], behind, rfl, rfl, .inr (.inr rfl)⟩
  | case3 => exact ⟨[], text, rfl, rfl, .inl rfl⟩

/-- A sign is the same in front of every text that goes on with a digit. -/
theorem splitSign_append
    {sign behind : List Char}
    (isSign : sign = [] ∨ sign = ['+'] ∨ sign = ['-'])
    (digitNext : startsWithDigit behind = true) :
    splitSign (sign ++ behind) = (sign, behind) := by
  rcases isSign with rfl | rfl | rfl
  · rcases behind with _ | ⟨c, behind⟩
    · rfl
    · have notPlus : c ≠ '+' := by
        rintro rfl
        contradiction
      have notMinus : c ≠ '-' := by
        rintro rfl
        contradiction
      simp [splitSign, notPlus, notMinus]
  · rfl
  · rfl

theorem startsWithDigit_append
    {digits : List Char}
    (all : ∀ c ∈ digits, c.isDigit = true)
    (notEmpty : digits ≠ [])
    (behind : List Char) :
    startsWithDigit (digits ++ behind) = true := by
  cases digits with
  | nil => exact (notEmpty rfl).elim
  | cons c digits =>
      have isDigit : c.isDigit = true := all c List.mem_cons_self
      simpa only [List.cons_append, startsWithDigit] using isDigit

/-- Whether a number stands at the start of a text. -/
def startsNumber : List Char → Bool
  | first :: more => first.isDigit || (first = '.' && startsWithDigit more)
  | [] => false

/-- A number stands where digits do, and behind a point as well. -/
theorem startsNumber_append
    {digits : List Char}
    (all : ∀ c ∈ digits, c.isDigit = true)
    (notEmpty : digits ≠ [])
    (behind : List Char) :
    startsNumber (digits ++ behind) = true ∧
      startsNumber ('.' :: (digits ++ behind)) = true := by
  have digitNext := startsWithDigit_append all notEmpty behind
  cases digits with
  | nil => exact (notEmpty rfl).elim
  | cons c digits =>
      have isDigit : c.isDigit = true := all c List.mem_cons_self
      simpa [startsNumber, isDigit] using digitNext

/-- No number stands where none stood before the text behind it was exchanged. -/
theorem startsNumber_follow
    {first : Char}
    {more after : List Char}
    (notNumber : startsNumber (first :: more) = false)
    (follows : Follows more after) :
    startsNumber (first :: after) = false := by
  simp only [startsNumber, Bool.or_eq_false_iff, Bool.and_eq_false_imp,
    decide_eq_true_eq] at notNumber ⊢
  refine ⟨notNumber.1, fun point => ?_⟩
  have stops : StopsAt Char.isDigit more := by
    intro c head
    obtain ⟨text, rfl⟩ := List.head?_eq_some_iff.mp head
    exact notNumber.2 point
  exact (stops.follow follows Nominal.isDigit.noBlank).startsWithDigit

/-- The parts of a spelled exponent. -/
structure Exponent where
  letter : Char
  sign : List Char
  digits : List Char
  isLetter : letter = 'e' ∨ letter = 'E'
  isSign : sign = [] ∨ sign = ['+'] ∨ sign = ['-']
  allDigits : ∀ c ∈ digits, c.isDigit = true
  notEmpty : digits ≠ []

namespace Exponent

/-- How an exponent is spelled. -/
def spelled (exponent : Exponent) : List Char :=
  exponent.letter :: (exponent.sign ++ exponent.digits)

/-- An exponent is read off every text that does not go on with a digit. -/
theorem split
    (exponent : Exponent)
    {behind : List Char}
    (stops : StopsAt Char.isDigit behind) :
    splitExponent (exponent.spelled ++ behind) = (exponent.spelled, behind) := by
  obtain ⟨letter, sign, digits, isLetter, isSign, allDigits, notEmpty⟩ := exponent
  have signed : splitSign (sign ++ digits ++ behind) = (sign, digits ++ behind) := by
    rw [List.append_assoc]
    exact splitSign_append isSign (startsWithDigit_append allDigits notEmpty behind)
  have isExponent : ((letter = 'e' || letter = 'E') && !digits.isEmpty) = true := by
    simpa [notEmpty] using isLetter
  simp only [spelled, List.cons_append, splitExponent, signed,
    span_append allDigits stops, isExponent, if_true]

theorem isNumberChar
    (exponent : Exponent) :
    ∀ c ∈ exponent.spelled, isNumberChar c = true := by
  obtain ⟨letter, sign, digits, isLetter, isSign, allDigits, notEmpty⟩ := exponent
  intro c member
  simp only [spelled, List.mem_cons, List.mem_append] at member
  rcases member with rfl | inSign | inDigits
  · rcases isLetter with rfl | rfl <;> decide
  · rcases isSign with rfl | rfl | rfl
    · contradiction
    · simp_all [Lexeme.isNumberChar]
    · simp_all [Lexeme.isNumberChar]
  · exact isNumberChar_of_isNameChar (Nominal.isDigit c (allDigits c inDigits))

end Exponent

/-- Whether no exponent is read off a text. -/
def NoExponent (text : List Char) : Prop :=
  splitExponent text = ([], text)

/-- A text begins with an exponent, or no exponent is read off it. -/
theorem splitExponent_cases (text : List Char) :
    NoExponent text ∨
      ∃ (exponent : Exponent) (behind : List Char),
        text = exponent.spelled ++ behind ∧ StopsAt Char.isDigit behind := by
  cases text with
  | nil => exact .inl rfl
  | cons letter text =>
      obtain ⟨sign, afterSign, rfl, signed, isSign⟩ := splitSign_cases text
      obtain ⟨digits, behind, rfl, spanned, allDigits, stops⟩ :=
        span_cases Char.isDigit afterSign
      by_cases isExponent : (letter = 'e' ∨ letter = 'E') ∧ digits ≠ []
      · obtain ⟨isLetter, notEmpty⟩ := isExponent
        exact .inr ⟨⟨letter, sign, digits, isLetter, isSign, allDigits, notEmpty⟩, behind,
          by simp [Exponent.spelled], stops⟩
      · left
        have refused : ((letter = 'e' || letter = 'E') && !digits.isEmpty) = false := by
          rw [← Bool.not_eq_true]
          simpa using isExponent
        simp only [NoExponent, splitExponent, signed, spanned, refused, Bool.false_eq_true,
          if_false]

/-- What is read as an exponent, perhaps nothing, does not depend on what follows it. -/
theorem splitExponent_follow (text : List Char) :
    ∃ exponent behind,
      text = exponent ++ behind ∧ splitExponent text = (exponent, behind) ∧
        (∀ c ∈ exponent, isNumberChar c = true) ∧
        ∀ after, Follows behind after → (NoExponent behind → NoExponent after) →
          splitExponent (exponent ++ after) = (exponent, after) := by
  rcases splitExponent_cases text with nothing | ⟨exponent, behind, rfl, stops⟩
  · exact ⟨[], text, rfl, nothing, by simp, fun _ _ noExponent => noExponent nothing⟩
  · exact ⟨exponent.spelled, behind, rfl, exponent.split stops, exponent.isNumberChar,
      fun after follows _ =>
        exponent.split (stops.follow follows Nominal.isDigit.noBlank)⟩

section Decimals

variable {whole decimals exponent behind : List Char}

/-- A decimal with a point is split there. -/
theorem splitDecimal_point
    (allWhole : ∀ c ∈ whole, c.isDigit = true)
    (allDecimals : ∀ c ∈ decimals, c.isDigit = true)
    (stops : StopsAt Char.isDigit (exponent ++ behind))
    (split : splitExponent (exponent ++ behind) = (exponent, behind)) :
    splitDecimal (whole ++ '.' :: (decimals ++ (exponent ++ behind))) =
      ⟨whole, some decimals, exponent, behind⟩ := by
  have point : StopsAt Char.isDigit ('.' :: (decimals ++ (exponent ++ behind))) := by
    intro c first
    cases first
    rfl
  simp only [splitDecimal, span_append allWhole point, span_append allDecimals stops, split]

/-- A decimal without a point has no decimals. -/
theorem splitDecimal_noPoint
    (allWhole : ∀ c ∈ whole, c.isDigit = true)
    (stops : StopsAt Char.isDigit (exponent ++ behind))
    (noPoint : StopsAt (· = '.') (exponent ++ behind))
    (split : splitExponent (exponent ++ behind) = (exponent, behind)) :
    splitDecimal (whole ++ (exponent ++ behind)) = ⟨whole, none, exponent, behind⟩ := by
  unfold splitDecimal
  simp only [span_append allWhole stops]
  split
  · next afterPoint isPoint =>
      rw [isPoint] at noPoint
      exact absurd (noPoint '.' rfl) (by decide)
  · rw [split]

/-- A decimal literal splits in the same way whatever follows it. -/
theorem splitDecimal_follow (text : List Char) :
    ∃ spelled,
      text = spelled ++ (splitDecimal text).rest ∧
        (∀ c ∈ spelled, isNumberChar c = true) ∧
        (startsNumber text = true → ∀ after, startsNumber (spelled ++ after) = true) ∧
        ∀ after, Follows (splitDecimal text).rest after →
          (NoExponent (splitDecimal text).rest → NoExponent after) →
          splitDecimal (spelled ++ after) = { splitDecimal text with rest := after } := by
  have digitChars {digits : List Char} (all : ∀ c ∈ digits, c.isDigit = true) :
      ∀ c ∈ digits, isNumberChar c = true := fun c member =>
    isNumberChar_of_isNameChar (Nominal.isDigit c (all c member))
  obtain ⟨whole, afterWhole, rfl, _, allWhole, stopsWhole⟩ := span_cases Char.isDigit text
  by_cases isPoint : afterWhole.head? = some '.'
  · obtain ⟨afterPoint, rfl⟩ := List.head?_eq_some_iff.mp isPoint
    obtain ⟨decimals, afterDecimals, rfl, _, allDecimals, stopsDecimals⟩ :=
      span_cases Char.isDigit afterPoint
    obtain ⟨exponent, behind, rfl, split, chars, stable⟩ := splitExponent_follow afterDecimals
    rw [splitDecimal_point allWhole allDecimals stopsDecimals split]
    refine ⟨whole ++ '.' :: (decimals ++ exponent), by simp, ?_, ?_, ?_⟩
    · intro c member
      simp only [List.mem_append, List.mem_cons] at member
      rcases member with inWhole | rfl | inDecimals | inExponent
      · exact digitChars allWhole c inWhole
      · rfl
      · exact digitChars allDecimals c inDecimals
      · exact chars c inExponent
    · intro number after
      by_cases noWhole : whole = []
      · subst noWhole
        have notEmpty : decimals ≠ [] := by
          rintro rfl
          exact absurd number (by simpa [startsNumber] using stopsDecimals.startsWithDigit)
        simpa using (startsNumber_append allDecimals notEmpty (exponent ++ after)).2
      · simpa using (startsNumber_append allWhole noWhole _).1
    · intro after follows noExponent
      have stopsAfter :=
        stopsDecimals.follow (follows.append exponent) Nominal.isDigit.noBlank
      simpa using splitDecimal_point allWhole allDecimals stopsAfter
        (stable after follows noExponent)
  · obtain ⟨exponent, behind, rfl, split, chars, stable⟩ := splitExponent_follow afterWhole
    have noPoint : StopsAt (· = '.') (exponent ++ behind) := by
      intro c first
      have other : c ≠ '.' := by
        rintro rfl
        exact isPoint first
      simpa using other
    rw [splitDecimal_noPoint allWhole stopsWhole noPoint split]
    refine ⟨whole ++ exponent, by simp, ?_, ?_, ?_⟩
    · intro c member
      rcases List.mem_append.mp member with inWhole | inExponent
      · exact digitChars allWhole c inWhole
      · exact chars c inExponent
    · intro number after
      have notEmpty : whole ≠ [] := by
        rintro rfl
        rcases head : exponent ++ behind with _ | ⟨c, text⟩
        · simp [head, startsNumber] at number
        · simp [head, startsNumber, stopsWhole c (by simp [head]),
            show c ≠ '.' by simpa using noPoint c (by simp [head])] at number
      simpa using (startsNumber_append allWhole notEmpty (exponent ++ after)).1
    · intro after follows noExponent
      have onward := follows.append exponent
      have stopsAfter := stopsWhole.follow onward Nominal.isDigit.noBlank
      have noPointAfter := noPoint.follow onward (by
        intro c isBlank
        by_contra point
        simp at point
        subst point
        contradiction)
      simpa using splitDecimal_noPoint allWhole stopsAfter noPointAfter
        (stable after follows noExponent)

end Decimals

/-- Dropping a suffix leaves what follows it. -/
theorem dropWhile_follow
    {test : Char → Bool}
    (nominal : Nominal test)
    (text : List Char) :
    ∃ suffix,
      text = suffix ++ text.dropWhile test ∧ (∀ c ∈ suffix, test c = true) ∧
        ∀ after, Follows (text.dropWhile test) after →
          (suffix ++ after).dropWhile test = after := by
  have all : ∀ c ∈ text.takeWhile test, test c = true := fun _ => List.mem_takeWhile_imp
  exact ⟨text.takeWhile test, List.takeWhile_append_dropWhile.symm, all,
    fun after follows =>
      dropWhile_append all ((StopsAt.dropWhile test text).follow follows nominal.noBlank)⟩

/-- No exponent begins with another letter. -/
theorem noExponent_cons
    {letter : Char}
    (notLower : letter ≠ 'e')
    (notUpper : letter ≠ 'E')
    (text : List Char) :
    NoExponent (letter :: text) := by
  simp [NoExponent, splitExponent, notLower, notUpper]

/-- No exponent begins with a suffix. -/
theorem noExponent_suffix
    {test : Char → Bool}
    {suffix behind after : List Char}
    (all : ∀ c ∈ suffix, test c = true)
    (notLower : test 'e' = false)
    (notUpper : test 'E' = false)
    (noExponent : NoExponent behind → NoExponent after)
    (before : NoExponent (suffix ++ behind)) :
    NoExponent (suffix ++ after) := by
  cases suffix with
  | nil => exact noExponent before
  | cons c suffix =>
      have accepted := all c List.mem_cons_self
      apply noExponent_cons
      · rintro rfl
        simp [notLower] at accepted
      · rintro rfl
        simp [notUpper] at accepted

variable {text behind : List Char} {kind : TokenKind}

/-- A decimal is read again behind the same characters, whatever follows. -/
theorem readDecimal_follow (read : readDecimal text = .ok (kind, behind)) :
    ∃ spelled,
      text = spelled ++ behind ∧ (∀ c ∈ spelled, isNumberChar c = true) ∧
        (startsNumber text = true → ∀ after, startsNumber (spelled ++ after) = true) ∧
        ∀ after, Follows behind after → (NoExponent behind → NoExponent after) →
          readDecimal (spelled ++ after) = .ok (kind, after) := by
  obtain ⟨digits, whole, chars, begins, stable⟩ := splitDecimal_follow text
  have suffixChars
      {test : Char → Bool}
      {suffix : List Char}
      (nominal : Nominal test)
      (all : ∀ c ∈ suffix, test c = true) :
      ∀ c ∈ digits ++ suffix, isNumberChar c = true := by
    intro c member
    rcases List.mem_append.mp member with inDigits | inSuffix
    · exact chars c inDigits
    · exact isNumberChar_of_isNameChar (nominal c (all c inSuffix))
  simp only [readDecimal] at read
  split at read
  · next isInt =>
      split at read
      · next small =>
          obtain ⟨suffix, split, all, dropped⟩ :=
            dropWhile_follow Nominal.isIntSuffix (splitDecimal text).rest
          cases read
          refine ⟨digits ++ suffix, ?_, suffixChars Nominal.isIntSuffix all,
            fun number after => ?_, ?_⟩
          · rw [List.append_assoc, ← split, ← whole]
          · rw [List.append_assoc]
            exact begins number _
          · intro after follows noExponent
            have parts := stable (suffix ++ after)
              (by rw [split]; exact follows.append suffix)
              (by rw [split]; exact noExponent_suffix all (by decide) (by decide) noExponent)
            simp only [readDecimal, List.append_assoc, parts, isInt, small, if_true,
              dropped after follows]
      · contradiction
  · next notInt =>
      obtain ⟨suffix, split, all, dropped⟩ :=
        dropWhile_follow Nominal.isFloatSuffix (splitDecimal text).rest
      cases read
      refine ⟨digits ++ suffix, ?_, suffixChars Nominal.isFloatSuffix all,
        fun number after => ?_, ?_⟩
      · rw [List.append_assoc, ← split, ← whole]
      · rw [List.append_assoc]
        exact begins number _
      · intro after follows noExponent
        have parts := stable (suffix ++ after)
          (by rw [split]; exact follows.append suffix)
          (by rw [split]; exact noExponent_suffix all (by decide) (by decide) noExponent)
        simp only [readDecimal, List.append_assoc, parts, notInt, Bool.false_eq_true, if_false,
          dropped after follows]

/-- The two characters that announce a base. -/
theorem radix?_cases {radix : Radix} (announced : radix? text = some radix) :
    ∃ second digits,
      text = '0' :: second :: digits ∧
        (Text.isNameChar second = true ∧ second.isDigit = false) ∧
        Nominal radix.isDigit ∧
        ∀ other, radix? ('0' :: second :: other) = some radix := by
  unfold radix? at announced
  split at announced <;> first | contradiction | cases announced
  · exact ⟨'x', _, rfl, by decide, Nominal.isHexDigit, fun _ => rfl⟩
  · exact ⟨'X', _, rfl, by decide, Nominal.isHexDigit, fun _ => rfl⟩
  · exact ⟨'b', _, rfl, by decide, Nominal.isBinaryDigit, fun _ => rfl⟩
  · exact ⟨'B', _, rfl, by decide, Nominal.isBinaryDigit, fun _ => rfl⟩

/-- Digits with a radix are read again, whatever follows. -/
theorem readRadix_follow
    {radix : Radix}
    {first second : Char}
    {digits : List Char}
    (nominal : Nominal radix.isDigit)
    (read : readRadix radix (first :: second :: digits) = .ok (kind, behind)) :
    ∃ spelled,
      digits = spelled ++ behind ∧ (∀ c ∈ spelled, Text.isNameChar c = true) ∧
        ∀ after, Follows behind after →
          readRadix radix (first :: second :: (spelled ++ after)) = .ok (kind, after) := by
  obtain ⟨digits, rest, rfl, spanned, allDigits, stops⟩ := span_cases radix.isDigit digits
  simp only [readRadix, List.drop_succ_cons, List.drop_zero, spanned] at read
  split at read
  · contradiction
  · next accepted =>
      obtain ⟨suffix, split, all, dropped⟩ := dropWhile_follow Nominal.isIntSuffix rest
      cases read
      refine ⟨digits ++ suffix, ?_, ?_, ?_⟩
      · rw [List.append_assoc, ← split]
      · intro c member
        rcases List.mem_append.mp member with inDigits | inSuffix
        · exact nominal c (allDigits c inDigits)
        · exact Nominal.isIntSuffix c (all c inSuffix)
      · intro after follows
        rw [split] at stops
        have stopsAfter := stops.follow (follows.append suffix) nominal.noBlank
        simp only [readRadix, List.append_assoc, List.drop_succ_cons, List.drop_zero,
          span_append allDigits stopsAfter, accepted, dropped after follows]
        rfl

/-- A text that announces no base announces none with another text behind its number. -/
theorem radix?_follow
    {spelled after : List Char}
    (notAnnounced : radix? (spelled ++ behind) = none)
    (notEmpty : spelled ≠ [])
    (follows : Follows behind after) :
    radix? (spelled ++ after) = none := by
  by_contra announced
  obtain ⟨radix, isRadix⟩ := Option.ne_none_iff_exists'.mp announced
  obtain ⟨second, digits, same, ⟨isName, _⟩, _, always⟩ := radix?_cases isRadix
  have refused : ∀ other, spelled ++ behind ≠ '0' :: second :: other := by
    intro other split
    rw [split, always] at notAnnounced
    contradiction
  rcases spelled with _ | ⟨first, _ | ⟨next, spelled⟩⟩
  · contradiction
  · obtain ⟨rfl, rfl⟩ := List.cons_eq_cons.mp same
    rcases follows second rfl with isBlank | next
    · rw [not_isNameChar_of_isBlank isBlank] at isName
      contradiction
    · obtain ⟨other, rfl⟩ := List.head?_eq_some_iff.mp next
      exact refused other rfl
  · simp only [List.cons_append, List.cons.injEq] at same
    obtain ⟨rfl, rfl, _⟩ := same
    exact refused _ rfl

/-- A number does not depend on the text behind it if no exponent begins that text. -/
theorem readNumber_follow
    {first : Char}
    {more : List Char}
    (number : startsNumber (first :: more) = true)
    (read : readNumber (first :: more) = .ok (kind, behind)) :
    ∃ spelled,
      more = spelled ++ behind ∧ (∀ c ∈ first :: spelled, isNumberChar c = true) ∧
        ∀ after, startsNumber (first :: (spelled ++ after)) = true ∧
          (Follows behind after → (NoExponent behind → NoExponent after) →
            readNumber (first :: (spelled ++ after)) = .ok (kind, after)) := by
  unfold readNumber at read
  split at read
  · next radix announced =>
      obtain ⟨second, digits, same, ⟨isName, _⟩, nominal, always⟩ := radix?_cases announced
      obtain ⟨rfl, rfl⟩ := List.cons_eq_cons.mp same
      obtain ⟨spelled, rfl, chars, stable⟩ := readRadix_follow nominal read
      refine ⟨second :: spelled, rfl, ?_, fun after => ⟨rfl, fun follows _ => ?_⟩⟩
      · intro c member
        simp only [List.mem_cons] at member
        rcases member with rfl | rfl | inSpelled
        · rfl
        · exact isNumberChar_of_isNameChar isName
        · exact isNumberChar_of_isNameChar (chars c inSpelled)
      · simp only [readNumber, List.cons_append, always, stable after follows]
  · next notAnnounced =>
      obtain ⟨spelled, same, chars, begins, stable⟩ := readDecimal_follow read
      rcases spelled with _ | ⟨c, spelled⟩
      · simpa [startsNumber] using begins number []
      · obtain ⟨rfl, rfl⟩ := List.cons_eq_cons.mp same
        refine ⟨spelled, rfl, chars, fun after => ⟨begins number after, ?_⟩⟩
        intro follows noExponent
        have notAnnouncedAfter : radix? (first :: spelled ++ after) = none :=
          radix?_follow notAnnounced (by simp) follows
        rw [List.cons_append] at notAnnouncedAfter
        simp only [readNumber, notAnnouncedAfter]
        exact stable after follows noExponent

end Numbers

/-- A word does not depend on the text behind it. -/
theorem readWord_follow
    {first : Char}
    {more behind : List Char}
    {kind : TokenKind}
    (isStart : Text.isNameStart first = true)
    (read : readWord (first :: more) = (kind, behind)) :
    ∃ spelled,
      more = spelled ++ behind ∧ (∀ c ∈ first :: spelled, Text.isNameChar c = true) ∧
        ∀ after, Follows behind after → readWord (first :: (spelled ++ after)) = (kind, after) := by
  obtain ⟨word, rest, same, spanned, chars, stops⟩ := span_cases Text.isNameChar (first :: more)
  have behindWord : behind = rest := by
    simp only [readWord, spanned] at read
    split at read <;> exact (congrArg Prod.snd read).symm
  subst behindWord
  rcases word with _ | ⟨c, spelled⟩
  · have notName := stops first (by rw [← List.nil_append behind, ← same]; rfl)
    simp [Text.isNameChar_of_isNameStart isStart] at notName
  · obtain ⟨rfl, rfl⟩ := List.cons_eq_cons.mp same
    refine ⟨spelled, rfl, chars, fun after follows => ?_⟩
    have stopsAfter := stops.follow follows fun _ => not_isNameChar_of_isBlank
    simp only [readWord, spanned] at read
    simp only [readWord, ← List.cons_append, span_append chars stopsAfter]
    split at read <;> simp_all

/-- What may stand between the quotes of a literal, with the content that it spells. -/
inductive Inside (quote : Char) : List Char → List Char → Prop where
  | nothing : Inside quote [] []
  | plain
      {c : Char}
      {inner content : List Char}
      (notQuote : c ≠ quote)
      (notEscape : c ≠ '\\')
      (notLineEnd : c ≠ '\n')
      (onward : Inside quote inner content) :
      Inside quote (c :: inner) (c :: content)
  | escape
      {c : Char}
      {inner content : List Char}
      (onward : Inside quote inner content) :
      Inside quote ('\\' :: c :: inner) (unescape c :: content)

/-- A literal ends at the first quote that is not escaped, before its line ends. -/
theorem literal?_eq_some_iff
    {quote : Char}
    {text content behind : List Char}
    (notEscape : quote ≠ '\\')
    (notLineEnd : quote ≠ '\n') :
    literal? quote text = some (content, behind) ↔
      ∃ inner, Inside quote inner content ∧ text = inner ++ quote :: behind := by
  constructor
  · intro read
    induction text using literal?.induct quote generalizing content with
    | case1 | case2 | case3 => contradiction
    | case4 c text inductionHypothesis =>
        obtain ⟨⟨inside, after⟩, inner, same⟩ := Option.map_eq_some_iff.mp read
        cases same
        obtain ⟨spelled, spells, rfl⟩ := inductionHypothesis inner
        exact ⟨'\\' :: c :: spelled, .escape spells, rfl⟩
    | case5 text notLineEnd notLast notEscape =>
        rw [literal?, if_pos rfl] at read
        · cases read
          exact ⟨[], .nothing, rfl⟩
        · exact notLineEnd
        · exact notLast
        · exact notEscape
    | case6 c text lineEnd last escaped notQuote inductionHypothesis =>
        rw [literal?, if_neg notQuote] at read
        · obtain ⟨⟨inside, after⟩, inner, same⟩ := Option.map_eq_some_iff.mp read
          cases same
          obtain ⟨spelled, spells, rfl⟩ := inductionHypothesis inner
          refine ⟨c :: spelled, .plain notQuote ?_ lineEnd spells, rfl⟩
          rintro rfl
          cases spelled with
          | nil => exact escaped _ _ rfl rfl
          | cons other spelled => exact escaped _ _ rfl rfl
        · exact lineEnd
        · exact last
        · exact escaped
  · rintro ⟨inner, spells, rfl⟩
    induction spells with
    | nothing => simp [literal?, notEscape]
    | plain otherQuote otherEscape otherLineEnd spells inductionHypothesis =>
        simp [literal?, otherQuote, otherEscape, inductionHypothesis]
    | escape spells inductionHypothesis => simp [literal?, inductionHypothesis]

section Marks

/-- No spelling begins with an earlier one. -/
theorem spellings_pairwise :
    Punct.spellings.Pairwise fun earlier later =>
      ¬ earlier.1.toList <+: later.1.toList := by
  decide +kernel

/-- A spelling that begins with another one and goes on has a spelling one character longer. -/
theorem exists_spelling_between :
    ∀ long ∈ Punct.spellings, ∀ short ∈ Punct.spellings,
      short.1.toList <+: long.1.toList → short.1.length < long.1.length →
      ∃ other ∈ Punct.spellings,
        other.1.toList = long.1.toList.take (short.1.length + 1) := by
  decide +kernel

/-- Marks have no blanks. -/
theorem not_isBlank_of_mem_spelling :
    ∀ entry ∈ Punct.spellings, ∀ c ∈ entry.1.toList, Text.isBlank c = false := by
  have all :
      (Punct.spellings.all fun entry => entry.1.toList.all fun c => !Text.isBlank c) = true := by
    decide
  simpa only [List.all_eq_true, Bool.not_eq_true'] using all

/-- The mark of a text is the first one of which the text begins with a spelling. -/
theorem ofText?_eq_some_iff
    {text behind : List Char}
    {mark : Punct} :
    Punct.ofText? text = some (mark, behind) ↔
      ∃ earlier spelling later,
        Punct.spellings = earlier ++ (spelling, mark) :: later ∧
          text = spelling.toList ++ behind ∧
          ∀ entry ∈ earlier, ¬ entry.1.toList <+: text := by
  simp only [Punct.ofText?, List.findSome?_eq_some_iff]
  constructor
  · rintro ⟨earlier, ⟨spelling, found⟩, later, table, taken, skipped⟩
    simp only [Option.ite_none_right_eq_some, Option.some.injEq, Prod.mk.injEq] at taken
    obtain ⟨begins, rfl, rfl⟩ := taken
    obtain ⟨behind, rfl⟩ := List.isPrefixOf_iff_prefix.mp begins
    refine ⟨earlier, spelling, later, table, ?_, fun entry member begins => ?_⟩
    · rw [← String.length_toList, List.drop_left]
    · have refused := skipped entry member
      simp only [List.isPrefixOf_iff_prefix.mpr begins, if_true] at refused
      contradiction
  · rintro ⟨earlier, spelling, later, table, rfl, skipped⟩
    refine ⟨earlier, (spelling, mark), later, table, ?_, fun entry member => ?_⟩
    · have begins : spelling.toList.isPrefixOf (spelling.toList ++ behind) = true :=
        List.isPrefixOf_iff_prefix.mpr (List.prefix_append ..)
      simp only [begins, if_true, ← String.length_toList, List.drop_left]
    · have refused := skipped entry member
      rw [← List.isPrefixOf_iff_prefix, Bool.not_eq_true] at refused
      simp only [refused, Bool.false_eq_true, if_false]

/-- The mark at the start of a text does not depend on the text behind it. -/
theorem ofText?_follow
    {text behind : List Char}
    {mark : Punct}
    (read : Punct.ofText? text = some (mark, behind)) :
    ∃ spelling,
      (spelling, mark) ∈ Punct.spellings ∧ text = spelling.toList ++ behind ∧
        ∀ after, Follows behind after →
          Punct.ofText? (spelling.toList ++ after) = some (mark, after) := by
  obtain ⟨earlier, spelling, later, table, rfl, skipped⟩ := ofText?_eq_some_iff.mp read
  have ordered := spellings_pairwise
  rw [table, List.pairwise_append, List.pairwise_cons] at ordered
  obtain ⟨_, ⟨notLonger, _⟩, notEarlier⟩ := ordered
  have memSpelling : (spelling, mark) ∈ Punct.spellings := by simp [table]
  refine ⟨spelling, memSpelling, rfl, fun after follows => ?_⟩
  refine ofText?_eq_some_iff.mpr ⟨earlier, spelling, later, table, rfl, ?_⟩
  intro long member longBegins
  have memLong : long ∈ Punct.spellings := by simp [table, member]
  have notInSpelling := notEarlier long member (spelling, mark) List.mem_cons_self
  rcases List.prefix_or_prefix_of_prefix longBegins (List.prefix_append _ _) with
    inSpelling | ⟨more, goesOn⟩
  · exact notInSpelling inSpelling
  · -- The spelling with one more character is a spelling too, and the text began with it.
    cases more with
    | nil => exact notInSpelling ⟨[], by simpa using goesOn.symm⟩
    | cons c more =>
        obtain ⟨other, memOther, isOther⟩ :=
          exists_spelling_between long memLong (spelling, mark) memSpelling ⟨c :: more, goesOn⟩
            (by
              simp only [← String.length_toList, ← goesOn, List.length_append,
                List.length_cons]
              omega)
        have spelled : other.1.toList = spelling.toList ++ [c] := by
          rw [isOther, ← goesOn, ← String.length_toList, List.take_length_add_append]
          rfl
        have first : after.head? = some c := by
          obtain ⟨rest, whole⟩ := longBegins
          rw [← goesOn, List.append_assoc] at whole
          rw [← List.append_cancel_left whole]
          rfl
        have notBlank : Text.isBlank c = false :=
          not_isBlank_of_mem_spelling long memLong c (by simp [← goesOn])
        have same : behind.head? = some c := by
          rcases follows c first with isBlank | same
          · rw [notBlank] at isBlank
            contradiction
          · exact same
        obtain ⟨rest, rfl⟩ := List.head?_eq_some_iff.mp same
        rw [table, List.mem_append, List.mem_cons] at memOther
        rcases memOther with inEarlier | rfl | inLater
        · exact skipped other inEarlier ⟨rest, by simp [spelled]⟩
        · simp at spelled
        · exact notLonger other inLater ⟨[c], spelled.symm⟩

end Marks

/-- Every mark has a character. -/
theorem spelling_ne_nil : ∀ entry ∈ Punct.spellings, entry.1.toList ≠ [] := by
  decide

/-- How tokens are spelled: as a number, as a word, in quotes, or as a mark. -/
inductive Form : List Char → TokenKind → Prop where
  | number
      {spelled : List Char}
      {kind : TokenKind}
      (starts : startsNumber spelled = true)
      (chars : ∀ c ∈ spelled, isNumberChar c = true)
      (noMark : ∀ mark, kind ≠ .punct mark) :
      Form spelled kind
  | word
      {spelled : List Char}
      {kind : TokenKind}
      (chars : ∀ c ∈ spelled, Text.isNameChar c = true)
      (noMark : ∀ mark, kind ≠ .punct mark) :
      Form spelled kind
  | text
      {inner content : List Char}
      (inside : Inside '"' inner content) :
      Form ('"' :: (inner ++ ['"'])) (.text (String.ofList content))
  | character
      {inner : List Char}
      {c : Char}
      (inside : Inside '\'' inner [c]) :
      Form ('\'' :: (inner ++ ['\''])) (.int (Int64.ofNat c.toNat))
  | mark
      {spelling : String}
      {mark : Punct}
      (member : (spelling, mark) ∈ Punct.spellings) :
      Form spelling.toList (.punct mark)

/-- A number is no mark. -/
theorem noMark_of_readNumber
    {text behind : List Char}
    {kind : TokenKind}
    (read : readNumber text = .ok (kind, behind))
    (mark : Punct) :
    kind ≠ .punct mark := by
  rintro rfl
  simp only [readNumber, readRadix, readDecimal] at read
  repeat' split at read
  all_goals simp at read

/-- A word is no mark. -/
theorem noMark_of_readWord
    {text behind : List Char}
    {kind : TokenKind}
    (read : readWord text = (kind, behind))
    (mark : Punct) :
    kind ≠ .punct mark := by
  rintro rfl
  simp only [readWord] at read
  split at read <;> simp at read

/-- A string does not depend on the text behind it. -/
theorem readString_follow
    {text behind : List Char}
    {kind : TokenKind}
    (read : readString text = .ok (kind, behind)) :
    ∃ spelled,
      text = spelled ++ behind ∧ Form ('"' :: spelled) kind ∧
        ∀ after, readString (spelled ++ after) = .ok (kind, after) := by
  have ends {text content behind : List Char} :=
    @literal?_eq_some_iff '"' text content behind (by decide) (by decide)
  simp only [readString] at read
  split at read
  · next content rest found =>
      cases read
      obtain ⟨inner, inside, rfl⟩ := ends.mp found
      refine ⟨inner ++ ['"'], by simp, .text inside, fun after => ?_⟩
      simp only [readString, List.append_assoc, List.singleton_append,
        ends.mpr ⟨inner, inside, rfl⟩]
  · contradiction

/-- A character does not depend on the text behind it. -/
theorem readCharacter_follow
    {text behind : List Char}
    {kind : TokenKind}
    (read : readCharacter text = .ok (kind, behind)) :
    ∃ spelled,
      text = spelled ++ behind ∧ Form ('\'' :: spelled) kind ∧
        ∀ after, readCharacter (spelled ++ after) = .ok (kind, after) := by
  have ends {text content behind : List Char} :=
    @literal?_eq_some_iff '\'' text content behind (by decide) (by decide)
  simp only [readCharacter] at read
  split at read
  · next c rest found =>
      cases read
      obtain ⟨inner, inside, rfl⟩ := ends.mp found
      refine ⟨inner ++ ['\''], by simp, .character inside, fun after => ?_⟩
      simp only [readCharacter, List.append_assoc, List.singleton_append,
        ends.mpr ⟨inner, inside, rfl⟩]
  · contradiction
  · contradiction

/-- What is read at a character that begins no number. -/
theorem readToken_of_noNumber
    {first : Char}
    {more : List Char}
    (noNumber : startsNumber (first :: more) = false) :
    readToken first more =
      if first = '"' then readString more
      else if first = '\'' then readCharacter more
      else if Text.isNameStart first then .ok (readWord (first :: more))
      else readPunct first (first :: more) := by
  simp only [startsNumber] at noNumber
  simp only [readToken, noNumber, Bool.false_eq_true, if_false]

/-- What starts a name is read as a word. -/
theorem readToken_of_isNameStart
    {first : Char}
    {more : List Char}
    (isStart : Text.isNameStart first = true) :
    readToken first more = .ok (readWord (first :: more)) := by
  have others : first ≠ '.' ∧ first ≠ '"' ∧ first ≠ '\'' := by
    refine ⟨?_, ?_, ?_⟩ <;>
      · rintro rfl
        contradiction
  have notDigit : first.isDigit = false := by
    cases isDigit : first.isDigit with
    | false => rfl
    | true =>
        have range : 48 ≤ first.toNat ∧ first.toNat ≤ 57 := Char.isDigit_iff_toNat.mp isDigit
        simp only [Text.isNameStart, isAlpha_iff, Bool.or_eq_true, decide_eq_true_eq] at isStart
        rcases isStart with (upper | lower) | rfl
        · omega
        · omega
        · contradiction
  have noNumber : startsNumber (first :: more) = false := by
    simp [startsNumber, others.1, notDigit]
  rw [readToken_of_noNumber noNumber, if_neg others.2.1, if_neg others.2.2, if_pos isStart]

/--
A token takes its spelling from the text.  It does so as well where another text follows
it, if that text cannot go on with the token.
-/
theorem readToken_follow
    {first : Char}
    {more behind : List Char}
    {kind : TokenKind}
    (read : readToken first more = .ok (kind, behind)) :
    ∃ spelled,
      more = spelled ++ behind ∧ Form (first :: spelled) kind ∧
        ∀ after, Follows behind after →
          (startsNumber (first :: spelled) = true → NoExponent behind → NoExponent after) →
          readToken first (spelled ++ after) = .ok (kind, after) := by
  by_cases number : startsNumber (first :: more) = true
  · have isNumber := number
    simp only [startsNumber] at isNumber
    simp only [readToken, isNumber, if_true] at read
    obtain ⟨spelled, rfl, chars, stable⟩ := readNumber_follow number read
    have starts : startsNumber (first :: spelled) = true := by simpa using (stable []).1
    refine ⟨spelled, rfl, .number starts chars (noMark_of_readNumber read), ?_⟩
    intro after follows noExponent
    obtain ⟨again, numberRead⟩ := stable after
    simp only [startsNumber] at again
    simp only [readToken, again, if_true, numberRead follows (noExponent starts)]
  · rw [Bool.not_eq_true] at number
    rw [readToken_of_noNumber number] at read
    -- No number is read behind the exchange either.
    have noNumber
        {spelled after : List Char}
        (same : more = spelled ++ behind)
        (follows : Follows behind after) :
        startsNumber (first :: (spelled ++ after)) = false :=
      startsNumber_follow number (same ▸ follows.append spelled)
    split at read
    · next isQuote =>
        subst isQuote
        obtain ⟨spelled, same, form, stable⟩ := readString_follow read
        refine ⟨spelled, same, form, fun after follows _ => ?_⟩
        rw [readToken_of_noNumber (noNumber same follows), if_pos rfl, stable]
    split at read
    · next notQuote isQuote =>
        subst isQuote
        obtain ⟨spelled, same, form, stable⟩ := readCharacter_follow read
        refine ⟨spelled, same, form, fun after follows _ => ?_⟩
        rw [readToken_of_noNumber (noNumber same follows), if_neg notQuote, if_pos rfl, stable]
    split at read
    · next notQuote notMark isStart =>
        rw [Except.ok.injEq] at read
        obtain ⟨spelled, same, chars, stable⟩ := readWord_follow isStart read
        refine ⟨spelled, same, .word chars (noMark_of_readWord read), fun after follows _ => ?_⟩
        rw [readToken_of_noNumber (noNumber same follows), if_neg notQuote, if_neg notMark,
          if_pos isStart, stable after follows]
    · next notQuote notMark notStart =>
        simp only [readPunct] at read
        split at read
        · next mark rest found =>
            cases read
            obtain ⟨spelling, member, same, stable⟩ := ofText?_follow found
            obtain ⟨c, spelled, isSpelling⟩ :=
              List.exists_cons_of_ne_nil (spelling_ne_nil _ member)
            rw [isSpelling] at same stable
            obtain ⟨rfl, rfl⟩ := List.cons_eq_cons.mp same
            refine ⟨spelled, rfl, isSpelling ▸ .mark member, fun after follows _ => ?_⟩
            have again := stable after follows
            rw [List.cons_append] at again
            rw [readToken_of_noNumber (noNumber rfl follows), if_neg notQuote, if_neg notMark,
              if_neg notStart, readPunct, again]
        · contradiction

end Lexeme

end LedSketch.Script
