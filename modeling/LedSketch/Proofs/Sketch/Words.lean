import LedSketch.Proofs.Script.Spellings
import LedSketch.Text.CharClass

namespace LedSketch

/-!
# Words of a text

A word stands in a text where no character of a word is next to it.  A character that is part
of no word divides a text, and a word of the text is a word of one of the two parts.
-/

namespace Text

/-- No white space beyond ASCII is a part of a word. -/
theorem areApart_blankRanges :
    ∀ blanks ∈ blankRanges, ∀ words ∈ wordRanges, ∀ range ∈ words,
      blanks.2 < range.1 ∨ range.2 < blanks.1 := by
  decide +kernel

theorem not_isWordChar_of_isBlank
    {c : Char}
    (blank : isBlank c = true) :
    isWordChar c = false := by
  unfold isWordChar
  split
  · exact Script.not_isNameChar_of_isBlank blank
  · next beyond =>
      rw [isBlank, if_neg beyond, inRanges, List.any_eq_true] at blank
      obtain ⟨blanks, isBlanks, inBlanks⟩ := blank
      rw [List.any_eq_false]
      intro words isWords inWords
      obtain ⟨range, isRange, inRange⟩ := List.any_eq_true.mp inWords
      simp only [Bool.and_eq_true, decide_eq_true_eq] at inBlanks inRange
      have apart := areApart_blankRanges blanks isBlanks words isWords range isRange
      omega

/-- Whether a word begins in a text, with the rest of the text behind it. -/
def Occurs (word text behind : List Char) : Prop :=
  ∃ front, text = front ++ word ++ behind ∧ ∀ c ∈ front.getLast?, isWordChar c = false

/-- Whether a word stands in a text, and no other word goes on around it. -/
def HasWord (word text : List Char) : Prop :=
  ∃ behind, Occurs word text behind ∧ Script.StopsAt isWordChar behind

variable {word text behind first second : List Char} {separator : Char}

/-- A word in a divided text stands in front of what divides it, or behind. -/
theorem Occurs.divide
    (occurs : Occurs word (first ++ separator :: second) behind)
    (isWord : ∀ c ∈ word, isWordChar c = true)
    (notEmpty : word ≠ [])
    (divides : isWordChar separator = false) :
    (∃ rest, Occurs word first rest ∧ behind = rest ++ separator :: second) ∨
      Occurs word second behind := by
  obtain ⟨front, split, outside⟩ := occurs
  have notInWord : separator ∉ word := by
    intro member
    rw [isWord separator member] at divides
    contradiction
  rw [List.append_assoc] at split
  rcases List.append_eq_append_iff.mp split with ⟨rest, isFront, isRest⟩ | ⟨rest, isFirst, isRest⟩
  · rcases rest with _ | ⟨c, rest⟩
    · obtain ⟨c, others, rfl⟩ := List.exists_cons_of_ne_nil notEmpty
      obtain ⟨rfl, -⟩ := List.cons_eq_cons.mp isRest
      exact absurd List.mem_cons_self notInWord
    · obtain ⟨rfl, isSecond⟩ := List.cons_eq_cons.mp isRest
      refine .inr ⟨rest, isSecond.trans (List.append_assoc ..).symm, fun c isLast => outside c ?_⟩
      rw [isFront, List.getLast?_append, List.getLast?_cons, Option.mem_def.mp isLast]
      rfl
  · rcases List.append_eq_append_iff.mp isRest with
      ⟨more, isMore, isBehind⟩ | ⟨more, isWhole, isBehind⟩
    · exact .inl ⟨more, ⟨front, by rw [isFirst, isMore, List.append_assoc], outside⟩, isBehind⟩
    · rcases more with _ | ⟨c, more⟩
      · rw [List.append_nil] at isWhole
        exact .inl ⟨[], ⟨front, by simp [isFirst, isWhole], outside⟩, isBehind.symm⟩
      · obtain ⟨rfl, -⟩ := List.cons_eq_cons.mp isBehind
        exact absurd (isWhole ▸ List.mem_append_right _ List.mem_cons_self) notInWord

namespace HasWord

theorem divide
    (hasWord : HasWord word (first ++ separator :: second))
    (isWord : ∀ c ∈ word, isWordChar c = true)
    (notEmpty : word ≠ [])
    (divides : isWordChar separator = false) :
    HasWord word first ∨ HasWord word second := by
  obtain ⟨behind, occurs, stops⟩ := hasWord
  rcases occurs.divide isWord notEmpty divides with ⟨rest, inFirst, rfl⟩ | inSecond
  · refine .inl ⟨rest, inFirst, fun c isHead => stops c ?_⟩
    rw [List.head?_append, isHead, Option.some_or]
  · exact .inr ⟨behind, inSecond, stops⟩

/-- More text in front of a text keeps its words, if what divides the two is no word. -/
theorem prepend
    (hasWord : HasWord word second)
    (divides : isWordChar separator = false)
    (first : List Char) :
    HasWord word (first ++ separator :: second) := by
  obtain ⟨behind, ⟨front, isText, outside⟩, stops⟩ := hasWord
  refine ⟨behind, ⟨first ++ separator :: front, by simp [isText], fun c isLast => ?_⟩, stops⟩
  rw [List.getLast?_append, List.getLast?_cons] at isLast
  cases inFront : front.getLast? with
  | none =>
      rw [inFront] at isLast
      cases isLast
      exact divides
  | some last =>
      rw [inFront] at isLast
      cases isLast
      exact outside last inFront

theorem length_le (hasWord : HasWord word text) : word.length ≤ text.length := by
  obtain ⟨behind, ⟨front, rfl, -⟩, -⟩ := hasWord
  simp only [List.length_append]
  omega

theorem not_nil (notEmpty : word ≠ []) : ¬ HasWord word [] :=
  fun hasWord => notEmpty (List.eq_nil_of_length_eq_zero (Nat.le_zero.mp hasWord.length_le))

end HasWord

section NoWord

variable (isWord : ∀ c ∈ word, isWordChar c = true) (notEmpty : word ≠ [])

include isWord notEmpty

theorem not_hasWord_divide
    (notFirst : ¬ HasWord word first)
    (notSecond : ¬ HasWord word second)
    (divides : isWordChar separator = false) :
    ¬ HasWord word (first ++ separator :: second) :=
  fun hasWord => (hasWord.divide isWord notEmpty divides).elim notFirst notSecond

/-- White space in front of a text adds no word. -/
theorem not_hasWord_blank_append
    {blanks : List Char}
    (blank : ∀ c ∈ blanks, isBlank c = true)
    (notText : ¬ HasWord word text) :
    ¬ HasWord word (blanks ++ text) := by
  induction blanks with
  | nil => exact notText
  | cons c blanks inductionHypothesis =>
      obtain ⟨here, others⟩ := List.forall_mem_cons.mp blank
      refine @not_hasWord_divide word [] (blanks ++ text) c isWord notEmpty ?_
        (inductionHypothesis others) (not_isWordChar_of_isBlank here)
      exact HasWord.not_nil notEmpty

/-- White space around a text adds no word. -/
theorem not_hasWord_pad
    {before after : List Char}
    (blankBefore : ∀ c ∈ before, isBlank c = true)
    (blankAfter : ∀ c ∈ after, isBlank c = true)
    (notText : ¬ HasWord word text) :
    ¬ HasWord word (before ++ (text ++ after)) := by
  refine not_hasWord_blank_append isWord notEmpty blankBefore ?_
  cases after with
  | nil => rwa [List.append_nil]
  | cons c after =>
      obtain ⟨here, others⟩ := List.forall_mem_cons.mp blankAfter
      have notAfter :=
        not_hasWord_blank_append isWord notEmpty others (HasWord.not_nil notEmpty)
      rw [List.append_nil] at notAfter
      exact not_hasWord_divide isWord notEmpty notText notAfter (not_isWordChar_of_isBlank here)

end NoWord

end Text

end LedSketch
