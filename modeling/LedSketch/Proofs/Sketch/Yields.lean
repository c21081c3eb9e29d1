import LedSketch.Proofs.Pattern.Pieces
import LedSketch.Proofs.Pattern.Starts
import LedSketch.Proofs.Sketch.Parameters
import LedSketch.Sketch.Rule

namespace LedSketch

/-!
# What a rule makes of a text without literals

A rule goes over a text from left to right.  What it makes of the whole text is put together
from what it makes of the text behind a match, or behind a character that it keeps.
-/

namespace Text

theorem isWordChar_of_isNameChar
    {c : Char}
    (isName : isNameChar c = true) :
    isWordChar c = true := by
  rw [isWordChar, if_pos (Script.range_of_isNameChar isName).2, isName]

end Text

namespace Sketch

open Pattern (Match Needs matchAt?_sound)

/-- Reading text that opens neither literals nor comments leaves code behind. -/
theorem Lexical.readMany_plain
    {text : List Char}
    (plain : ∀ c ∈ text, isPlain c = true)
    (rest : List Char)
    (depth : Int) :
    ∃ deeper, (code depth).readMany text.length (text ++ rest) = code deeper := by
  induction text generalizing depth with
  | nil => exact ⟨depth, rfl⟩
  | cons c text inductionHypothesis =>
      obtain ⟨here, others⟩ := List.forall_mem_cons.mp plain
      obtain ⟨deeper, step⟩ :=
        (@Ready.code depth (c :: (text ++ rest))).readMany_one
          (isUnquoted_iff.mp (isUnquoted_of_isPlain here)) (opensComment_of_isPlain here _)
      have one : (code depth).read c (text ++ rest).head? = code deeper := step
      rw [List.length_cons, List.cons_append, readMany, one]
      exact inductionHypothesis others deeper

/-- New text stands alone in the place of old text on one line. -/
theorem keepLines_of_oneLine
    {old : List Char}
    (oneLine : '\n' ∉ old)
    (new : List Char) :
    keepLines old new = new := by
  rw [keepLines, List.count_eq_zero.mpr oneLine, Nat.zero_sub, List.replicate_zero, List.append_nil]

namespace Rule

/-- What a rule makes of the rest of a text, from a place in code on. -/
def outcome
    (rule : Rule)
    (turns count : Nat)
    (depth : Int)
    (cursor : Cursor) :
    List Char :=
  (rule.segmentsFrom (.code depth) (rule.pattern.piecesFrom turns count cursor)).flatMap
    Segment.after

/-- Whether a rule makes the second text of the first, however deep braces nest there. -/
def Yields
    (rule : Rule)
    (turns : Nat)
    (before : Option Char)
    (text out : List Char) :
    Prop :=
  ∀ depth count offset, text.length ≤ count →
    rule.outcome turns count depth ⟨before, text, offset⟩ = out

variable {rule : Rule} {turns : Nat} {before : Option Char} {text rest out : List Char}

/-- The text of a match is what stands in front of the text behind it. -/
theorem text_of_matchAt?
    {found : Match}
    {old : List Char}
    {offset : Nat}
    (matched : rule.pattern.matchAt? turns ⟨before, old ++ rest, offset⟩ = some found)
    (behind : found.last.rest = rest) :
    found.text = old ∧ old ≠ [] := by
  obtain ⟨isFirst, sound⟩ := matchAt?_sound matched
  have whole := sound.passes.rest
  rw [isFirst, behind] at whole
  obtain rfl : old = found.text := List.append_cancel_right whole
  exact ⟨rfl, sound.notEmpty⟩

/-- What a rule does from a match on. -/
theorem segmentsFrom_found
    {found : Match}
    {old : List Char}
    {count offset : Nat}
    (state : Lexical)
    (matched : rule.pattern.matchAt? turns ⟨before, old ++ rest, offset⟩ = some found)
    (behind : found.last.rest = rest) :
    rule.segmentsFrom state
        (rule.pattern.piecesFrom turns (count + 1) ⟨before, old ++ rest, offset⟩) =
      rule.segment state found ::
        rule.segmentsFrom (state.readMany old.length (old ++ rest))
          (rule.pattern.piecesFrom turns count found.last) := by
  obtain ⟨isFirst, sound⟩ := matchAt?_sound matched
  obtain ⟨rfl, notEmpty⟩ := text_of_matchAt? matched behind
  obtain ⟨c, others, isText⟩ := List.exists_cons_of_ne_nil notEmpty
  have pieces : rule.pattern.piecesFrom turns (count + 1) ⟨before, found.text ++ rest, offset⟩ =
      .found found :: rule.pattern.piecesFrom turns count found.last := by
    rw [isText, List.cons_append] at matched ⊢
    simp only [Pattern.piecesFrom, matched]
  have taken : found.last.offset - found.first.offset = found.text.length := by
    rw [sound.passes.offset, Nat.add_sub_cancel_left]
  rw [pieces, segmentsFrom, taken, isFirst]

/-- What a rule puts in the place of a match, with the line ends that it keeps. -/
theorem after_segment
    {found : Match}
    {new : List Char}
    {state : Lexical}
    (notLiteral : state.inLiteral = false)
    (made : rule.replacement.apply? state found = some new) :
    (rule.segment state found).after = keepLines found.text new := by
  simp only [segment, notLiteral, Bool.false_eq_true, if_false, made]
  split
  · next unchanged => simp [Segment.after, keepLines, unchanged]
  · rfl

/-- The replacement of a match stands in front of what is made of the text behind it. -/
theorem outcome_replaced
    {found : Match}
    {old new : List Char}
    {count offset : Nat}
    {depth : Int}
    (matched : rule.pattern.matchAt? turns ⟨before, old ++ rest, offset⟩ = some found)
    (behind : found.last.rest = rest)
    (made : rule.replacement.apply? (.code depth) found = some new)
    (plain : ∀ c ∈ old, isPlain c = true)
    (onward : ∀ before, rule.Yields turns before rest out)
    (enough : (old ++ rest).length ≤ count) :
    rule.outcome turns count depth ⟨before, old ++ rest, offset⟩ = keepLines old new ++ out := by
  obtain ⟨isText, notEmpty⟩ := text_of_matchAt? matched behind
  have positive := List.length_pos_iff.mpr notEmpty
  rw [List.length_append] at enough
  obtain ⟨count, rfl⟩ : ∃ fewer, count = fewer + 1 := ⟨count - 1, by omega⟩
  have isNew : (rule.segment (.code depth) found).after = keepLines old new :=
    isText ▸ after_segment rfl made
  obtain ⟨deeper, isCode⟩ := Lexical.readMany_plain plain rest depth
  have later := onward found.last.before deeper count found.last.offset (by omega)
  rw [← behind] at later
  rw [outcome, segmentsFrom_found (.code depth) matched behind, List.flatMap_cons, isNew, isCode]
  exact congrArg (keepLines old new ++ ·) later

namespace Yields

theorem nil : rule.Yields turns before [] [] := by
  intro depth count offset _
  cases count <;> rfl

/-- A character is kept where no match begins. -/
theorem plain
    {c : Char}
    (isPlain : isPlain c = true)
    (unmatched : ∀ offset, rule.pattern.matchAt? turns ⟨before, c :: rest, offset⟩ = none)
    (onward : rule.Yields turns (some c) rest out) :
    rule.Yields turns before (c :: rest) (c :: out) := by
  intro depth count offset enough
  cases count with
  | zero => contradiction
  | succ count =>
      obtain ⟨deeper, step⟩ :=
        (@Lexical.Ready.code depth (c :: rest)).readMany_one
          (isUnquoted_iff.mp (isUnquoted_of_isPlain isPlain)) (opensComment_of_isPlain isPlain _)
      have later := onward deeper count (offset + 1) (Nat.le_of_succ_le_succ enough)
      simp only [outcome, Pattern.piecesFrom, unmatched, segmentsFrom, step, List.flatMap_cons]
      exact congrArg (c :: ·) later

theorem replaced
    {old new : List Char}
    (matched :
      ∀ offset, ∃ found,
        rule.pattern.matchAt? turns ⟨before, old ++ rest, offset⟩ = some found ∧
          found.last.rest = rest ∧
          ∀ depth, rule.replacement.apply? (.code depth) found = some new)
    (plain : ∀ c ∈ old, isPlain c = true)
    (onward : ∀ before, rule.Yields turns before rest out) :
    rule.Yields turns before (old ++ rest) (keepLines old new ++ out) := by
  intro depth count offset enough
  obtain ⟨found, isMatch, behind, made⟩ := matched offset
  exact outcome_replaced isMatch behind (made depth) plain onward enough

/-- A word is kept if no match begins with it, and none can begin inside of it. -/
theorem word
    {spelled : List Char}
    (edged : rule.pattern.IsEdged)
    (notEmpty : spelled ≠ [])
    (isName : ∀ c ∈ spelled, Text.isNameChar c = true)
    (unmatched : ∀ offset, rule.pattern.matchAt? turns ⟨before, spelled ++ rest, offset⟩ = none)
    (later : ∀ before, rule.Yields turns before rest out) :
    rule.Yields turns before (spelled ++ rest) (spelled ++ out) := by
  induction spelled generalizing before with
  | nil => contradiction
  | cons c spelled inductionHypothesis =>
      obtain ⟨here, others⟩ := List.forall_mem_cons.mp isName
      refine plain (isPlain_of_isNameChar here) unmatched ?_
      cases spelled with
      | nil => exact later (some c)
      | cons next spelled =>
          have following := Text.isWordChar_of_isNameChar (others next List.mem_cons_self)
          refine inductionHypothesis (List.cons_ne_nil next spelled) others fun offset =>
            edged _ _ ?_
          simp [Pattern.atWordEdge, Pattern.isWordAt, Text.isWordChar_of_isNameChar here,
            following]

/-- A text is kept if the characters that the pattern needs one of are missing. -/
theorem of_needs
    {wanted : Char → Bool}
    (plain : ∀ c ∈ text, isPlain c = true)
    (needs : Needs wanted rule.pattern)
    (missing : ∀ c ∈ text, wanted c = false) :
    rule.Yields turns before text text := by
  induction text generalizing before with
  | nil => exact .nil
  | cons c text inductionHypothesis =>
      exact .plain (plain c List.mem_cons_self)
        (fun _ => Pattern.matchAt?_eq_none_of_needs needs missing)
        (inductionHypothesis (fun c member => plain c (List.mem_cons_of_mem _ member))
          fun c member => missing c (List.mem_cons_of_mem _ member))

end Yields

theorem apply_of_yields (yields : rule.Yields text.length none text out) :
    (rule.apply text).1 = out :=
  yields 0 text.length 0 (Nat.le_refl _)

/-- A rule does nothing where all the characters that its pattern needs one of are missing. -/
theorem apply_of_needs
    {wanted : Char → Bool}
    (plain : ∀ c ∈ text, isPlain c = true)
    (needs : Needs wanted rule.pattern)
    (missing : ∀ c ∈ text, wanted c = false) :
    (rule.apply text).1 = text :=
  apply_of_yields (.of_needs plain needs missing)

end Rule

end Sketch

end LedSketch
