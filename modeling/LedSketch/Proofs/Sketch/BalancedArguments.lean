import LedSketch.Proofs.Sketch.Wrapping

namespace LedSketch.Sketch

/-!
# Balanced arguments

Commas in brackets and in literals do not separate arguments.  So a list of balanced arguments
is split into them again, without the white space around its commas.
-/

open Script (StopsAt)
open Script.Lexeme (Inside)

/-- Whether a character opens or closes a literal. -/
def isQuote (c : Char) : Bool := c = '"' || c = '\''

/-- Whether a character opens a bracket. -/
def opensBracket (c : Char) : Bool := ['(', '[', '\x7b'].contains c

/-- Whether a character closes a bracket. -/
def closesBracket (c : Char) : Bool := [')', ']', '\x7d'].contains c

/--
Text in which every bracket and every literal is closed, where commas may stand outside of them
or not.  Brackets of different kinds are not told apart.
-/
inductive Balanced : Bool → List Char → Prop where
  | nil {commas : Bool} : Balanced commas []
  | plain
      {commas : Bool}
      {c : Char}
      {rest : List Char}
      (notQuote : isQuote c = false)
      (notOpening : opensBracket c = false)
      (notClosing : closesBracket c = false)
      (allowed : c = ',' → commas = true)
      (onward : Balanced commas rest) :
      Balanced commas (c :: rest)
  | literal
      {commas : Bool}
      {quote : Char}
      {inner content rest : List Char}
      (isQuote : isQuote quote = true)
      (inside : Inside quote inner content)
      (onward : Balanced commas rest) :
      Balanced commas (quote :: (inner ++ quote :: rest))
  | brackets
      {commas : Bool}
      {opening closing : Char}
      {inner rest : List Char}
      (opens : opensBracket opening = true)
      (closes : closesBracket closing = true)
      (inside : Balanced true inner)
      (onward : Balanced commas rest) :
      Balanced commas (opening :: (inner ++ closing :: rest))

/-- An argument with the white space around it. -/
structure Argument where
  before : List Char
  text : List Char
  after : List Char
  blankBefore : ∀ c ∈ before, Text.isBlank c = true
  blankAfter : ∀ c ∈ after, Text.isBlank c = true
  notEmpty : text ≠ []
  trimmed : Text.trim text = text
  balanced : Balanced false text

/-- The argument as it stands between commas. -/
def Argument.padded (argument : Argument) : List Char :=
  argument.before ++ (argument.text ++ argument.after)

namespace ArgumentScan

/-- Outside of literals, in a number of brackets. -/
def within (nesting : Int) : ArgumentScan := ⟨nesting, none, false⟩

/-- Whether a text is read without a cut, from one state to another. -/
def Passes
    (scan last : ArgumentScan)
    (text : List Char) :
    Prop :=
  ∀ rest, splitFrom scan (text ++ rest) =
    (text ++ (splitFrom last rest).1, (splitFrom last rest).2)

variable {scan middle last : ArgumentScan} {nesting : Int} {c quote : Char}
  {text more : List Char}

namespace Passes

theorem refl (scan : ArgumentScan) : Passes scan scan [] := fun _ => rfl

theorem cons
    (notCut : scan.splitsAt c = false)
    (onward : Passes (scan.read c) last text) :
    Passes scan last (c :: text) := by
  intro rest
  rw [List.cons_append, splitFrom, onward rest]
  simp only [notCut, Bool.false_eq_true, if_false, List.cons_append]

theorem append
    (first : Passes scan middle text)
    (second : Passes middle last more) :
    Passes scan last (text ++ more) := by
  intro rest
  rw [List.append_assoc, first, second, List.append_assoc]

/-- The inside of a literal is read over. -/
theorem inside
    {content : List Char}
    (inside : Inside quote text content) :
    Passes ⟨nesting, some quote, false⟩ ⟨nesting, some quote, false⟩ text := by
  induction inside with
  | nothing => exact .refl _
  | plain notQuote notEscape notLineEnd onward inductionHypothesis =>
      refine .cons rfl ?_
      simpa [ArgumentScan.read, notQuote, notEscape] using inductionHypothesis
  | escape onward inductionHypothesis =>
      refine .cons rfl (.cons rfl ?_)
      simpa [ArgumentScan.read] using inductionHypothesis

end Passes

theorem read_quote
    (isQuote : isQuote quote = true) :
    (within nesting).read quote = ⟨nesting, some quote, false⟩ := by
  simp only [Sketch.isQuote] at isQuote
  simp only [within, read, if_pos isQuote]

/-- Brackets are no quotes. -/
theorem isQuote_of_bracket
    (isBracket : opensBracket c = true ∨ closesBracket c = true) :
    isQuote c = false := by
  rw [Sketch.isQuote, Bool.or_eq_false_iff, decide_eq_false_iff_not, decide_eq_false_iff_not]
  constructor <;>
    · rintro rfl
      rcases isBracket with opens | closes <;> contradiction

theorem read_opening
    (opens : opensBracket c = true) :
    (within nesting).read c = within (nesting + 1) := by
  have notQuote := isQuote_of_bracket (.inl opens)
  simp only [Sketch.isQuote] at notQuote
  simp only [opensBracket] at opens
  simp only [within, read, notQuote, Bool.false_eq_true, if_false, if_pos opens]

theorem read_closing
    (closes : closesBracket c = true) :
    (within nesting).read c = within (nesting - 1) := by
  have notQuote := isQuote_of_bracket (.inr closes)
  simp only [Sketch.isQuote] at notQuote
  have notOpening : ¬ ['(', '[', '\x7b'].contains c = true := by
    simp only [List.contains_iff_mem, List.mem_cons, List.not_mem_nil, or_false]
    rintro (rfl | rfl | rfl) <;> contradiction
  simp only [closesBracket] at closes
  simp only [within, read, notQuote, Bool.false_eq_true, if_false, if_neg notOpening, if_pos closes]

theorem read_plain
    (notQuote : isQuote c = false)
    (notOpening : opensBracket c = false)
    (notClosing : closesBracket c = false) :
    (within nesting).read c = within nesting := by
  simp only [Sketch.isQuote] at notQuote
  simp only [opensBracket] at notOpening
  simp only [closesBracket] at notClosing
  simp only [within, read, notQuote, notOpening, notClosing, Bool.false_eq_true, if_false]

/-- Only a comma outside of all brackets cuts. -/
theorem splitsAt_within
    (notComma : c = ',' → nesting ≠ 0) :
    (within nesting).splitsAt c = false := by
  simp only [within, splitsAt, Option.isNone_none, Bool.true_and, Bool.and_eq_false_iff,
    decide_eq_false_iff_not]
  by_cases isComma : c = ','
  · exact .inl (decide_eq_false (notComma isComma))
  · exact .inr isComma

/-- Balanced text is read over, and leaves as many brackets open as there were. -/
theorem passes_balanced
    {commas : Bool}
    (balanced : Balanced commas text)
    (notNegative : 0 ≤ nesting)
    (deep : commas = true → 0 < nesting) :
    Passes (within nesting) (within nesting) text := by
  induction balanced generalizing nesting with
  | nil => exact .refl _
  | plain notQuote notOpening notClosing allowed onward inductionHypothesis =>
      refine .cons (splitsAt_within fun isComma => Int.ne_of_gt (deep (allowed isComma))) ?_
      rw [read_plain notQuote notOpening notClosing]
      exact inductionHypothesis notNegative deep
  | @literal commas mark inner content rest isQuote inside onward inductionHypothesis =>
      refine .cons (splitsAt_within ?_) ?_
      · rintro rfl
        contradiction
      · have notEscape : mark ≠ '\\' := by
          rintro rfl
          contradiction
        have closed : (ArgumentScan.mk nesting (some mark) false).read mark = within nesting := by
          simp [read, within, notEscape]
        rw [read_quote isQuote]
        refine (Passes.inside inside).append (.cons rfl ?_)
        rw [closed]
        exact inductionHypothesis notNegative deep
  | @brackets commas opening closing inner rest opens closes inside onward ofInside ofRest =>
      refine .cons (splitsAt_within ?_) ?_
      · rintro rfl
        contradiction
      · rw [read_opening opens]
        refine (ofInside (by omega) fun _ => by omega).append (.cons (splitsAt_within ?_) ?_)
        · rintro rfl
          contradiction
        · rw [read_closing closes, Int.add_sub_cancel]
          exact ofRest notNegative deep

end ArgumentScan

namespace Balanced

variable {commas : Bool} {text more : List Char}

theorem append
    (first : Balanced commas text)
    (second : Balanced commas more) :
    Balanced commas (text ++ more) := by
  induction first with
  | nil => exact second
  | plain notQuote notOpening notClosing allowed onward inductionHypothesis =>
      exact .plain notQuote notOpening notClosing allowed (inductionHypothesis second)
  | literal isQuote inside onward inductionHypothesis =>
      rw [List.cons_append, List.append_assoc]
      exact .literal isQuote inside (inductionHypothesis second)
  | brackets opens closes inside onward _ inductionHypothesis =>
      rw [List.cons_append, List.append_assoc]
      exact .brackets opens closes inside (inductionHypothesis second)

theorem of_blank (blank : ∀ c ∈ text, Text.isBlank c = true) : Balanced commas text := by
  induction text with
  | nil => exact .nil
  | cons c text inductionHypothesis =>
      obtain ⟨here, others⟩ := List.forall_mem_cons.mp blank
      have other {refused : Char} (notBlank : Text.isBlank refused = false) : c ≠ refused := by
        rintro rfl
        rw [here] at notBlank
        contradiction
      refine .plain ?_ ?_ ?_ (fun isComma => absurd isComma (other rfl))
        (inductionHypothesis others)
      · simp [isQuote, @other '"' rfl, @other '\'' rfl]
      · simp [opensBracket, @other '(' rfl, @other '[' rfl, @other '\x7b' rfl]
      · simp [closesBracket, @other ')' rfl, @other ']' rfl, @other '\x7d' rfl]

end Balanced

section Arguments

/-- Text that is trimmed has no white space at its ends. -/
theorem stopsAt_of_trim
    {text : List Char}
    (trimmed : Text.trim text = text) :
    StopsAt Text.isBlank text ∧ StopsAt Text.isBlank text.reverse := by
  have lengths := congrArg List.length trimmed
  have ofFront := (List.dropWhile_sublist Text.isBlank (l := text)).length_le
  have ofBack := (List.dropWhile_sublist Text.isBlank
    (l := (text.dropWhile Text.isBlank).reverse)).length_le
  rw [Text.trim, List.length_reverse] at lengths
  rw [List.length_reverse] at ofBack
  have front : text.dropWhile Text.isBlank = text :=
    (List.dropWhile_sublist Text.isBlank).eq_of_length (by omega)
  have back : text.reverse.dropWhile Text.isBlank = text.reverse := by
    rw [front] at lengths
    exact (List.dropWhile_sublist Text.isBlank).eq_of_length (by rw [lengths, List.length_reverse])
  exact ⟨front ▸ .dropWhile _ text, back ▸ .dropWhile _ text.reverse⟩

namespace Argument

variable (argument : Argument)

theorem trim_padded : Text.trim argument.padded = argument.text := by
  obtain ⟨before, text, after, blankBefore, blankAfter, notEmpty, trimmed, -⟩ := argument
  obtain ⟨starts, ends⟩ := stopsAt_of_trim trimmed
  have startsPadded : StopsAt Text.isBlank (text ++ after) := by
    obtain ⟨c, others, rfl⟩ := List.exists_cons_of_ne_nil notEmpty
    exact starts
  have blankBack : ∀ c ∈ after.reverse, Text.isBlank c = true :=
    fun c member => blankAfter c (List.mem_reverse.mp member)
  dsimp only [padded]
  rw [Text.trim, Script.dropWhile_append blankBefore startsPadded, List.reverse_append,
    Script.dropWhile_append blankBack ends, List.reverse_reverse]

theorem balanced_padded : Balanced false argument.padded :=
  (Balanced.of_blank argument.blankBefore).append
    (argument.balanced.append (.of_blank argument.blankAfter))

end Argument

/-- The stretches between the separating commas are the arguments with what is around them. -/
theorem splitFrom_padded
    (first : Argument)
    (others : List Argument) :
    splitFrom .initial (List.intercalate [','] ((first :: others).map Argument.padded)) =
      (first.padded, others.map Argument.padded) := by
  have passes (argument : Argument) :
      ArgumentScan.Passes .initial .initial argument.padded :=
    ArgumentScan.passes_balanced argument.balanced_padded (Int.le_refl 0) nofun
  induction others generalizing first with
  | nil =>
      have whole := passes first []
      rw [List.append_nil] at whole
      simpa [splitFrom] using whole
  | cons next others inductionHypothesis =>
      have split : List.intercalate [','] ((first :: next :: others).map Argument.padded) =
          first.padded ++
            ',' :: List.intercalate [','] ((next :: others).map Argument.padded) := by
        simp [List.intercalate]
      have cut (rest : List Char) :
          splitFrom .initial (',' :: rest) =
            ([], (splitFrom .initial rest).1 :: (splitFrom .initial rest).2) :=
        rfl
      rw [split, passes first, cut, inductionHypothesis, List.append_nil, List.map_cons]

/-- A list of balanced arguments is split into its arguments. -/
theorem splitArguments_padded
    (first : Argument)
    (others : List Argument) :
    splitArguments (List.intercalate [','] ((first :: others).map Argument.padded)) =
      (first :: others).map Argument.text := by
  have filled : (Text.trim first.padded).isEmpty = false := by
    rw [first.trim_padded, List.isEmpty_eq_false_iff]
    exact first.notEmpty
  have trimmed : (first :: others).map (fun argument => Text.trim argument.padded) =
      (first :: others).map Argument.text :=
    List.map_congr_left fun argument _ => argument.trim_padded
  rw [splitArguments, splitFrom_padded]
  simp only [filled, Bool.and_false, Bool.false_eq_true, if_false]
  rw [← List.map_cons, List.map_map]
  exact trimmed

end Arguments

end LedSketch.Sketch
