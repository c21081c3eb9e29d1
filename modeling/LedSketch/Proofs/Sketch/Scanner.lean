import LedSketch.Proofs.Script.Lexemes
import LedSketch.Script.TokenStream
import LedSketch.Sketch.Lexical
import Mathlib.Data.List.Forall2

namespace LedSketch.Sketch

/-!
# The scanner of the rules and the tokens of the script

What the rules know about a place of a text agrees with the tokens of the text: braces
nest as the brace tokens do, and a place is inside of a literal if a literal token
reaches over it.
-/

open Script (Token TokenKind Punct)
open Script.Lexeme

namespace Lexical

theorem readMany_nil
    (state : Lexical)
    (count : Nat) :
    state.readMany count [] = state := by
  cases count <;> rfl

/-- Reading in two parts is reading in one. -/
theorem readMany_add
    (state : Lexical)
    (first second : Nat)
    (text : List Char) :
    state.readMany (first + second) text =
      (state.readMany first text).readMany second (text.drop first) := by
  induction first generalizing state text with
  | zero => simp [readMany]
  | succ first inductionHypothesis =>
      cases text with
      | nil => simp [readMany_nil]
      | cons c rest =>
          rw [Nat.add_right_comm, readMany, readMany, List.drop_succ_cons]
          exact inductionHypothesis ..

theorem readMany_append
    (state : Lexical)
    (spelled rest : List Char)
    (count : Nat) :
    state.readMany (spelled.length + count) (spelled ++ rest) =
      (state.readMany spelled.length (spelled ++ rest)).readMany count rest := by
  rw [readMany_add, List.drop_left]

/-- Characters that do not change a state are read over. -/
theorem readMany_stay
    {state : Lexical}
    {spelled : List Char}
    (stays : ∀ c ∈ spelled, ∀ following, state.read c following = state)
    (rest : List Char)
    {count : Nat}
    (within : count ≤ spelled.length) :
    state.readMany count (spelled ++ rest) = state := by
  induction spelled generalizing count with
  | nil =>
      obtain rfl : count = 0 := by simpa using within
      simp [readMany]
  | cons c spelled inductionHypothesis =>
      cases count with
      | zero => simp [readMany]
      | succ count =>
          rw [List.cons_append, readMany, stays c List.mem_cons_self]
          exact inductionHypothesis
            (fun other member => stays other (List.mem_cons_of_mem _ member))
            (Nat.le_of_succ_le_succ within)

/-- Whether a character means nothing outside of literals and comments. -/
def isNeutral (c : Char) : Bool :=
  c ≠ '/' && c ≠ '"' && c ≠ '\'' && c ≠ '\x7b' && c ≠ '\x7d'

/-- What is known in code, at a depth. -/
def code (depth : Int) : Lexical := ⟨.code, false, false, depth⟩

theorem read_neutral
    {c : Char}
    (neutral : isNeutral c = true)
    (depth : Int)
    (following : Option Char) :
    (code depth).read c following = code depth := by
  simp only [isNeutral, ne_eq, Bool.and_eq_true, decide_eq_true_eq] at neutral
  obtain ⟨⟨⟨⟨slash, quote⟩, mark⟩, opening⟩, closing⟩ := neutral
  simp [read, readCode, code, slash, quote, mark, opening, closing]

theorem read_slash
    {following : Option Char}
    (notLine : following ≠ some '/')
    (notBlock : following ≠ some '*')
    (depth : Int) :
    (code depth).read '/' following = code depth := by
  simp [read, readCode, code, notLine, notBlock]

theorem isNeutral_of_isBlank
    {c : Char}
    (isBlank : Text.isBlank c = true) :
    isNeutral c = true := by
  by_contra special
  simp only [isNeutral, ne_eq, Bool.and_eq_true, decide_eq_true_eq, not_and_or, not_not] at special
  rcases special with (((rfl | rfl) | rfl) | rfl) | rfl <;> contradiction

theorem isNeutral_of_isNumberChar
    {c : Char}
    (isNumberChar : isNumberChar c = true) :
    isNeutral c = true := by
  by_contra special
  simp only [isNeutral, ne_eq, Bool.and_eq_true, decide_eq_true_eq, not_and_or, not_not] at special
  rcases special with (((rfl | rfl) | rfl) | rfl) | rfl <;> contradiction

/-- The body of a block comment is read over. -/
theorem readMany_blockComment
    {body : List Char}
    (closed : ¬ ['*', '/'] <:+: body)
    (depth : Int)
    (rest : List Char)
    {count : Nat}
    (within : count ≤ body.length) :
    (Lexical.mk .blockComment false false depth).readMany count (body ++ '*' :: '/' :: rest) =
      ⟨.blockComment, false, false, depth⟩ := by
  induction body generalizing count with
  | nil =>
      obtain rfl : count = 0 := by simpa using within
      rfl
  | cons c body inductionHypothesis =>
      rw [List.infix_cons_iff, not_or] at closed
      cases count with
      | zero => rfl
      | succ count =>
          have notEnd : ¬ (c = '*' ∧ (body ++ '*' :: '/' :: rest).head? = some '/') := by
            rintro ⟨rfl, slash⟩
            cases body with
            | nil => simp at slash
            | cons next body =>
                obtain rfl : next = '/' := by simpa using slash
                exact closed.1 ⟨body, rfl⟩
          have step : (Lexical.mk .blockComment false false depth).read c
              (body ++ '*' :: '/' :: rest).head? = ⟨.blockComment, false, false, depth⟩ := by
            simp only [read, Bool.false_eq_true, if_false, Bool.and_eq_true, decide_eq_true_eq,
              if_neg notEnd]
          rw [List.cons_append, readMany, step]
          exact inductionHypothesis closed.2 (Nat.le_of_succ_le_succ within)

/-- The inside of a literal is read as a literal. -/
theorem readMany_inside
    {quote : Char}
    {inner content : List Char}
    (inside : Inside quote inner content)
    (depth : Int)
    (rest : List Char) :
    (Lexical.mk (.quote quote) false false depth).readMany inner.length (inner ++ rest) =
        ⟨.quote quote, false, false, depth⟩ ∧
      ∀ count ≤ inner.length,
        ((Lexical.mk (.quote quote) false false depth).readMany count
          (inner ++ rest)).inLiteral = true := by
  induction inside with
  | nothing =>
      refine ⟨rfl, fun count within => ?_⟩
      obtain rfl : count = 0 := by simpa using within
      rfl
  | @plain c inner content notQuote notEscape notLineEnd onward inductionHypothesis =>
      have step (following : Option Char) :
          (Lexical.mk (.quote quote) false false depth).read c following =
            ⟨.quote quote, false, false, depth⟩ := by
        simp [read, readQuoted, notQuote, notEscape, notLineEnd]
      refine ⟨?_, fun count within => ?_⟩
      · simpa [readMany, step] using inductionHypothesis.1
      · cases count with
        | zero => rfl
        | succ count =>
            simpa [readMany, step] using
              inductionHypothesis.2 count (Nat.le_of_succ_le_succ within)
  | @escape c inner content onward inductionHypothesis =>
      refine ⟨?_, fun count within => ?_⟩
      · simpa [readMany, read, readQuoted] using inductionHypothesis.1
      · rcases count with _ | _ | count
        · rfl
        · rfl
        · simpa [readMany, read, readQuoted] using
            inductionHypothesis.2 count (by simpa using within)

/-- What is known where a lexeme begins: code, or a line comment that ends there. -/
inductive Ready (depth : Int) (text : List Char) : Lexical → Prop where
  | code : Ready depth text (code depth)
  | commented
      (ends : Script.StopsAt (· ≠ '\n') text) :
      Ready depth text ⟨.lineComment, false, false, depth⟩

namespace Ready

variable {depth : Int} {state : Lexical}

theorem inLiteral
    {text : List Char}
    (ready : Ready depth text state) :
    state.inLiteral = false := by
  cases ready <;> rfl

/-- No comment is left where no blank follows. -/
theorem eq_code
    {first : Char}
    {more : List Char}
    (ready : Ready depth (first :: more) state)
    (notBlank : Text.isBlank first = false) :
    state = Lexical.code depth := by
  cases ready with
  | code => rfl
  | commented ends =>
      have lineEnd := ends first rfl
      simp only [ne_eq, decide_not, Bool.not_eq_false', decide_eq_true_eq] at lineEnd
      subst lineEnd
      contradiction

/-- In code a character that opens nothing leaves code behind. -/
theorem readMany_one
    {c : Char}
    {rest : List Char}
    (ready : Ready depth (c :: rest) state)
    (notQuote : c ≠ '"' ∧ c ≠ '\'')
    (noComment : opensComment c rest = false) :
    ∃ deeper, state.readMany 1 (c :: rest) = Lexical.code deeper := by
  have notOpened : ¬ (c = '/' ∧ rest.head? = some '/') ∧ ¬ (c = '/' ∧ rest.head? = some '*') := by
    constructor <;>
      · rintro ⟨rfl, mark⟩
        simp [opensComment, mark] at noComment
  cases ready with
  | code =>
      simp only [readMany, read, readCode, Lexical.code, notQuote, Bool.and_eq_true,
        decide_eq_true_eq, if_neg notOpened.1, if_neg notOpened.2, Bool.false_eq_true,
        decide_false, Bool.or_false, if_false]
      split
      · exact ⟨_, rfl⟩
      split <;> exact ⟨_, rfl⟩
  | commented ends =>
      obtain rfl : c = '\n' := by simpa using ends c rfl
      exact ⟨depth, rfl⟩

/-- What is skipped is no literal, and leaves the depth as it is. -/
theorem trivia
    {skipped rest : List Char}
    (isTrivia : Trivia rest skipped)
    (ready : Ready depth (skipped ++ rest) state) :
    Ready depth rest (state.readMany skipped.length (skipped ++ rest)) ∧
      ∀ count ≤ skipped.length,
        (state.readMany count (skipped ++ rest)).inLiteral = false := by
  cases isTrivia with
  | @blank c isBlank =>
      have step : state.read c rest.head? = Lexical.code depth := by
        cases ready with
        | code => exact read_neutral (isNeutral_of_isBlank isBlank) ..
        | commented ends =>
            have lineEnd := ends c rfl
            simp only [ne_eq, decide_not, Bool.not_eq_false', decide_eq_true_eq] at lineEnd
            subst lineEnd
            rfl
      refine ⟨?_, fun count within => ?_⟩
      · simp only [List.singleton_append, List.length_singleton, readMany, step]
        exact .code
      · rcases count with _ | _ | count
        · exact ready.inLiteral
        · simp only [List.singleton_append, readMany, step]
          rfl
        · simp at within
  | @line body noLineEnd ends =>
      obtain rfl := ready.eq_code (by decide)
      have stays : ∀ c ∈ body, ∀ following,
          (Lexical.mk .lineComment false false depth).read c following =
            ⟨.lineComment, false, false, depth⟩ := by
        intro c member following
        have notLineEnd : c ≠ '\n' := by
          rintro rfl
          exact noLineEnd member
        simp [read, notLineEnd]
      have onward {count : Nat} (within : count ≤ body.length) :
          (Lexical.code depth).readMany (count + 2) ('/' :: '/' :: (body ++ rest)) =
            ⟨.lineComment, false, false, depth⟩ :=
        readMany_stay stays rest within
      refine ⟨?_, fun count within => ?_⟩
      · simp only [List.cons_append, List.length_cons, onward le_rfl]
        exact .commented ends
      · rcases count with _ | _ | count
        · rfl
        · rfl
        · simp only [List.cons_append, onward (by simpa using within)]
          rfl
  | @block body closed =>
      obtain rfl := ready.eq_code (by decide)
      have onward {count : Nat} (within : count ≤ body.length) :
          (Lexical.code depth).readMany (count + 2)
              ('/' :: '*' :: (body ++ '*' :: '/' :: rest)) =
            ⟨.blockComment, false, false, depth⟩ :=
        readMany_blockComment closed depth rest within
      have ending (count : Nat) :
          (Lexical.code depth).readMany (body.length + 2 + count)
              ('/' :: '*' :: (body ++ '*' :: '/' :: rest)) =
            (Lexical.mk .blockComment false false depth).readMany count ('*' :: '/' :: rest) := by
        rw [readMany_add, onward le_rfl]
        simp
      simp only [List.cons_append, List.append_assoc, List.nil_append, List.length_cons,
        List.length_append, List.length_nil]
      refine ⟨?_, fun count within => ?_⟩
      · have last := ending 2
        rw [show body.length + 2 + 2 = body.length + (0 + 1 + 1) + 1 + 1 by omega] at last
        rw [last]
        exact .code
      · rcases count with _ | _ | count
        · rfl
        · rfl
        · by_cases inBody : count ≤ body.length
          · rw [onward inBody]
            rfl
          · obtain ⟨later, rfl⟩ : ∃ later, count = body.length + later :=
              ⟨count - body.length, by omega⟩
            have last := ending later
            rw [Nat.add_right_comm] at last
            rw [last]
            rcases later with _ | _ | _ | later
            · rfl
            · rfl
            · rfl
            · omega

end Ready

/-- How a token changes the depth of the braces. -/
def nesting (kind : TokenKind) : Int :=
  if kind.isPunct .leftBrace then 1 else if kind.isPunct .rightBrace then -1 else 0

theorem nesting_eq_zero
    {kind : TokenKind}
    (noMark : ∀ mark, kind ≠ .punct mark) :
    nesting kind = 0 := by
  cases kind with
  | punct mark => exact absurd rfl (noMark mark)
  | _ => rfl

/-- A mark is a brace, or neither a brace nor a quote, and only its first character is a slash. -/
theorem isNeutral_spelling :
    ∀ entry ∈ Punct.spellings,
      (entry.1.toList = ['\x7b'] ∧ entry.2 = .leftBrace) ∨
        (entry.1.toList = ['\x7d'] ∧ entry.2 = .rightBrace) ∨
        (nesting (.punct entry.2) = 0 ∧
          (∀ first ∈ entry.1.toList.head?, first = '/' ∨ isNeutral first = true) ∧
          ∀ c ∈ entry.1.toList.tail, isNeutral c = true) := by
  have all :
      (Punct.spellings.all fun entry =>
        (entry.1.toList = ['\x7b'] ∧ entry.2 = .leftBrace) ||
          (entry.1.toList = ['\x7d'] ∧ entry.2 = .rightBrace) ||
          (nesting (.punct entry.2) = 0 &&
            (entry.1.toList.head?.all fun first => first = '/' || isNeutral first) &&
            entry.1.toList.tail.all isNeutral)) = true := by
    decide
  simpa only [List.all_eq_true, Option.all_eq_true, Option.mem_def, decide_eq_true_eq,
    Bool.or_eq_true, Bool.and_eq_true, or_assoc, and_assoc] using all

section Tokens

/-- How a token looks to a scanner. -/
inductive Shape (first : Char) : List Char → TokenKind → Prop where
  | plain
      {spelled : List Char}
      {kind : TokenKind}
      (starts : first = '/' ∨ isNeutral first = true)
      (others : ∀ c ∈ spelled, isNeutral c = true)
      (noNesting : nesting kind = 0) :
      Shape first spelled kind
  | opening
      (brace : first = '\x7b') :
      Shape first [] (.punct .leftBrace)
  | closing
      (brace : first = '\x7d') :
      Shape first [] (.punct .rightBrace)
  | quoted
      {inner content : List Char}
      {kind : TokenKind}
      (isQuote : first = '"' ∨ first = '\'')
      (inside : Inside first inner content)
      (noNesting : nesting kind = 0) :
      Shape first (inner ++ [first]) kind

variable {first : Char} {spelled : List Char}

theorem shape_of_form
    {kind : TokenKind}
    (form : Form (first :: spelled) kind) :
    Shape first spelled kind := by
  have ofNumberChars
      (chars : ∀ c ∈ first :: spelled, isNumberChar c = true)
      (noMark : ∀ mark, kind ≠ .punct mark) :
      Shape first spelled kind :=
    .plain (.inr (isNeutral_of_isNumberChar (chars _ List.mem_cons_self)))
      (fun c member => isNeutral_of_isNumberChar (chars c (List.mem_cons_of_mem _ member)))
      (nesting_eq_zero noMark)
  generalize same : first :: spelled = whole at form
  cases form with
  | number starts chars noMark =>
      subst same
      exact ofNumberChars chars noMark
  | word chars noMark =>
      subst same
      exact ofNumberChars (fun c member => isNumberChar_of_isNameChar (chars c member)) noMark
  | text inside =>
      obtain ⟨rfl, rfl⟩ := List.cons_eq_cons.mp same
      exact .quoted (.inl rfl) inside rfl
  | character inside =>
      obtain ⟨rfl, rfl⟩ := List.cons_eq_cons.mp same
      exact .quoted (.inr rfl) inside rfl
  | @mark spelling mark member =>
      rcases isNeutral_spelling _ member with ⟨brace, isBrace⟩ | ⟨brace, isBrace⟩ | others
      · obtain ⟨rfl, rfl⟩ := List.cons_eq_cons.mp (same.trans brace)
        obtain rfl : mark = .leftBrace := isBrace
        exact .opening rfl
      · obtain ⟨rfl, rfl⟩ := List.cons_eq_cons.mp (same.trans brace)
        obtain rfl : mark = .rightBrace := isBrace
        exact .closing rfl
      · obtain ⟨noNesting, start, neutral⟩ := others
        simp only [← same, List.head?_cons, Option.mem_some_iff, forall_eq', List.tail_cons]
          at start neutral
        exact .plain start neutral noNesting

/-- A token has no quote and no comment mark in it, or it is a literal. -/
theorem unquoted_or_quoted
    {kind : TokenKind}
    (shape : Shape first spelled kind) :
    ((first ≠ '"' ∧ first ≠ '\'') ∧ ∀ c ∈ spelled, isNeutral c = true) ∨
      ∃ inner content,
        (first = '"' ∨ first = '\'') ∧ Inside first inner content ∧
          spelled = inner ++ [first] := by
  cases shape with
  | plain starts others noNesting =>
      refine .inl ⟨⟨?_, ?_⟩, others⟩ <;>
        · rintro rfl
          simp [isNeutral] at starts
  | opening brace =>
      subst brace
      exact .inl ⟨⟨by decide, by decide⟩, by simp⟩
  | closing brace =>
      subst brace
      exact .inl ⟨⟨by decide, by decide⟩, by simp⟩
  | quoted isQuote inside noNesting => exact .inr ⟨_, _, isQuote, inside, rfl⟩

/-- A token of neutral characters is read over, but a slash may stand in front. -/
theorem readMany_neutral
    {depth : Int}
    {behind : List Char}
    (step : (code depth).read first (spelled ++ behind).head? = code depth)
    (neutral : ∀ c ∈ spelled, isNeutral c = true)
    {count : Nat}
    (within : count ≤ spelled.length + 1) :
    (code depth).readMany count (first :: (spelled ++ behind)) = code depth := by
  cases count with
  | zero => rfl
  | succ count =>
      rw [readMany, step]
      exact readMany_stay (fun c member => read_neutral (neutral c member) depth) behind
        (Nat.le_of_succ_le_succ within)

/-- A token in quotes is read as a literal, from its first quote up to its last one. -/
theorem readMany_quoted
    {quote : Char}
    {inner content : List Char}
    (isQuote : quote = '"' ∨ quote = '\'')
    (inside : Inside quote inner content)
    (depth : Int)
    (behind : List Char) :
    (code depth).readMany (inner.length + 2) (quote :: (inner ++ [quote] ++ behind)) =
        code depth ∧
      ∀ count, 0 < count → count < inner.length + 2 →
        ((code depth).readMany count
          (quote :: (inner ++ [quote] ++ behind))).inLiteral = true := by
  have opens (following : Option Char) :
      (code depth).read quote following = ⟨.quote quote, false, false, depth⟩ := by
    rcases isQuote with rfl | rfl <;> rfl
  have closes (following : Option Char) :
      (Lexical.mk (.quote quote) false false depth).read quote following = code depth := by
    rcases isQuote with rfl | rfl <;> rfl
  obtain ⟨last, within⟩ := readMany_inside inside depth ([quote] ++ behind)
  simp only [List.append_assoc]
  refine ⟨?_, fun count positive before => ?_⟩
  · rw [readMany, opens, readMany_append, last, List.singleton_append, readMany, closes]
    rfl
  · obtain ⟨count, rfl⟩ : ∃ less, count = less + 1 := ⟨count - 1, by omega⟩
    rw [readMany, opens]
    exact within count (by omega)

/-- A token leaves code behind, and a place inside of it is in a literal if it is quoted. -/
theorem readMany_token
    {behind : List Char}
    {kind : TokenKind}
    (shape : Shape first spelled kind)
    (noComment : opensComment first (spelled ++ behind) = false)
    (depth : Int) :
    (code depth).readMany (spelled.length + 1) (first :: (spelled ++ behind)) =
        code (depth + nesting kind) ∧
      ∀ count, 0 < count → count < spelled.length + 1 →
        (((code depth).readMany count (first :: (spelled ++ behind))).inLiteral = true ↔
          first = '"' ∨ first = '\'') := by
  cases shape with
  | plain starts others noNesting =>
      have step : (code depth).read first (spelled ++ behind).head? = code depth := by
        rcases starts with rfl | neutral
        · simp only [opensComment, decide_true, Bool.true_and, Bool.or_eq_false_iff,
            decide_eq_false_iff_not] at noComment
          obtain ⟨notLine, notBlock⟩ := noComment
          exact read_slash notLine notBlock depth
        · exact read_neutral neutral ..
      have notQuote : ¬ (first = '"' ∨ first = '\'') := by
        rintro (rfl | rfl) <;> simp [isNeutral] at starts
      refine ⟨?_, fun count _ within => ?_⟩
      · rw [readMany_neutral step others le_rfl, noNesting, Int.add_zero]
      · rw [readMany_neutral step others within.le]
        simp [notQuote, inLiteral, code]
  | opening brace =>
      subst brace
      exact ⟨rfl, fun count positive before => by simp at before; omega⟩
  | closing brace =>
      subst brace
      exact ⟨rfl, fun count positive before => by simp at before; omega⟩
  | @quoted inner content kind isQuote inside noNesting =>
      obtain ⟨last, within⟩ := readMany_quoted isQuote inside depth behind
      refine ⟨?_, fun count positive before => ?_⟩
      · rw [noNesting, Int.add_zero, List.length_append, List.length_singleton]
        exact last
      · have isBefore : count < inner.length + 2 := by
          simp only [List.length_append, List.length_singleton] at before
          omega
        exact iff_of_true (within count positive isBefore) isQuote

end Tokens

/-- What one scanner knows where it is asked, on its way from an offset of a text on. -/
def askedFrom
    (text : List Char)
    (state : Lexical)
    (reached : Nat) :
    List Nat → List Lexical
  | [] => []
  | offset :: offsets =>
      let next := state.readMany (offset - reached) (text.drop reached)
      next :: askedFrom text next (max reached offset) offsets

/-- What one scanner knows at the offsets at which it is asked, one after the other. -/
def asked
    (text : List Char)
    (offsets : List Nat) :
    List Lexical :=
  askedFrom text .initial 0 offsets

/-- A scanner that is asked on its way knows the same as one that goes there at once. -/
theorem askedFrom_eq_map
    {text : List Char}
    {reached : Nat}
    {offsets : List Nat}
    (increasing : (reached :: offsets).Pairwise (· ≤ ·)) :
    askedFrom text (atOffset text reached) reached offsets = offsets.map (atOffset text) := by
  induction offsets generalizing reached with
  | nil => rfl
  | cons offset offsets inductionHypothesis =>
      obtain ⟨notBefore, increasing⟩ := List.pairwise_cons.mp increasing
      have reachedFirst := notBefore offset List.mem_cons_self
      have next : (atOffset text reached).readMany (offset - reached) (text.drop reached) =
          atOffset text offset := by
        rw [atOffset, ← readMany_add, Nat.add_sub_cancel' reachedFirst, atOffset]
      simp only [askedFrom, next, Nat.max_eq_right reachedFirst, inductionHypothesis increasing,
        List.map_cons]

end Lexical

/-- The number of tokens that are a certain mark. -/
def countMarks
    (mark : Punct)
    (tokens : List Token) :
    Nat :=
  tokens.countP fun token => token.kind.isPunct mark

/--
What is known at an offset of a text agrees with its tokens, where braces nest `outer`
deep at the start of the text.
-/
structure Agrees
    (outer : Int)
    (text : List Char)
    (tokens : List Token)
    (offset : Nat)
    (state : Lexical) :
    Prop where
  depth :
    ∀ earlier token later,
      tokens = earlier ++ token :: later → token.start text = offset →
      state.depth = outer + countMarks .leftBrace earlier - countMarks .rightBrace earlier
  code : ∀ token ∈ tokens, token.start text = offset → state.inLiteral = false
  literal :
    state.inLiteral = true ↔
      ∃ token ∈ tokens, token.IsQuoted ∧ token.start text < offset ∧ offset < token.stop text

namespace Agrees

variable {outer : Int} {text behind : List Char} {tokens : List Token} {offset : Nat}
  {state : Lexical}

/-- Before the first token no token begins, and no place is inside of a literal. -/
theorem before
    (later : ∀ token ∈ tokens, offset < token.start text)
    (notLiteral : state.inLiteral = false) :
    Agrees outer text tokens offset state where
  depth earlier token rest split starts := by
    have behind := later token (by simp [split])
    omega
  code _ _ _ := notLiteral
  literal := by
    rw [notLiteral]
    simp only [Bool.false_eq_true, false_iff]
    rintro ⟨token, member, _, before, _⟩
    have behind := later token member
    omega

/-- More text stands in front of the tokens. -/
theorem shift
    (skipped : List Char)
    (agrees : Agrees outer text tokens offset state)
    (lengths : ∀ token ∈ tokens,
      token.here.length ≤ text.length ∧ token.behind.length ≤ token.here.length) :
    Agrees outer (skipped ++ text) tokens (skipped.length + offset) state := by
  have start (token : Token) (member : token ∈ tokens) :
      token.start (skipped ++ text) = skipped.length + token.start text := by
    have lies := lengths token member
    simp only [Token.start, List.length_append]
    omega
  have stop (token : Token) (member : token ∈ tokens) :
      token.stop (skipped ++ text) = skipped.length + token.stop text := by
    have lies := lengths token member
    simp only [Token.stop, List.length_append]
    omega
  constructor
  · intro earlier token later split starts
    rw [start token (by simp [split])] at starts
    exact agrees.depth earlier token later split (by omega)
  · intro token member starts
    rw [start token member] at starts
    exact agrees.code token member (by omega)
  · rw [agrees.literal]
    constructor
    · rintro ⟨token, member, quoted, before, after⟩
      rw [← Nat.add_lt_add_iff_left (k := skipped.length)] at before after
      exact ⟨token, member, quoted, start token member ▸ before, stop token member ▸ after⟩
    · rintro ⟨token, member, quoted, before, after⟩
      rw [start token member] at before
      rw [stop token member] at after
      exact ⟨token, member, quoted, by omega, by omega⟩

/-- A token in front is counted, and reaches up to where the other tokens may begin. -/
theorem cons
    {first : Char}
    {spelled : List Char}
    {kind : TokenKind}
    {line : Nat}
    (agrees : Agrees (outer + Lexical.nesting kind) behind tokens offset state)
    (lengths : ∀ token ∈ tokens,
      token.here.length ≤ behind.length ∧ token.behind.length ≤ token.here.length) :
    Agrees outer (first :: (spelled ++ behind))
      (⟨kind, line, first :: (spelled ++ behind), behind⟩ :: tokens)
      (spelled.length + 1 + offset) state := by
  obtain ⟨depth, code, literal⟩ := agrees.shift (first :: spelled) lengths
  rw [List.length_cons, List.cons_append] at depth code literal
  constructor
  · intro earlier token later split starts
    rcases earlier with _ | ⟨head, earlier⟩
    · obtain ⟨rfl, rfl⟩ := List.cons_eq_cons.mp split
      simp [Token.start] at starts
      omega
    · obtain ⟨rfl, rest⟩ := List.cons_eq_cons.mp split
      rw [depth earlier token later rest starts]
      rcases kind with _ | _ | _ | _ | _ | mark | _
      case punct =>
        cases mark <;>
          simp [countMarks, Lexical.nesting, TokenKind.isPunct] <;>
          omega
      all_goals simp [countMarks, Lexical.nesting, TokenKind.isPunct]
  · intro token member starts
    rcases List.mem_cons.mp member with rfl | inTokens
    · simp [Token.start] at starts
      omega
    · exact code token inTokens starts
  · rw [literal]
    constructor
    · rintro ⟨token, member, inside⟩
      exact ⟨token, List.mem_cons_of_mem _ member, inside⟩
    · rintro ⟨token, member, quoted, before, after⟩
      rcases List.mem_cons.mp member with rfl | inTokens
      · simp [Token.stop] at after
        omega
      · exact ⟨token, inTokens, quoted, before, after⟩

/-- Up to the end of the first token only that token matters. -/
theorem first
    {first : Char}
    {spelled : List Char}
    {kind : TokenKind}
    {line : Nat}
    (within : offset < spelled.length + 1)
    (lengths : ∀ token ∈ tokens, token.here.length ≤ behind.length)
    (depth : state.depth = outer ∨ 0 < offset)
    (literal : state.inLiteral = true ↔ 0 < offset ∧ (first = '"' ∨ first = '\'')) :
    Agrees outer (first :: (spelled ++ behind))
      (⟨kind, line, first :: (spelled ++ behind), behind⟩ :: tokens) offset state := by
  have later (token : Token) (member : token ∈ tokens) :
      offset < token.start (first :: (spelled ++ behind)) := by
    have lies := lengths token member
    simp only [Token.start, List.length_cons, List.length_append]
    omega
  constructor
  · intro earlier token rest split starts
    rcases earlier with _ | ⟨head, earlier⟩
    · obtain ⟨rfl, rfl⟩ := List.cons_eq_cons.mp split
      have atStart : ¬ 0 < offset := by
        simp [Token.start] at starts
        omega
      simp [countMarks, depth.resolve_right atStart]
    · obtain ⟨rfl, same⟩ := List.cons_eq_cons.mp split
      have behind := later token (by simp [same])
      omega
  · intro token member starts
    rcases List.mem_cons.mp member with rfl | inTokens
    · have atStart : ¬ 0 < offset := by
        simp [Token.start] at starts
        omega
      simpa [atStart] using literal
    · have behind := later token inTokens
      omega
  · rw [literal]
    constructor
    · rintro ⟨positive, quoted⟩
      refine ⟨_, List.mem_cons_self, ?_, ?_, ?_⟩
      · rcases quoted with rfl | rfl
        · exact ⟨_, .inl rfl⟩
        · exact ⟨_, .inr rfl⟩
      · simpa [Token.start] using positive
      · simp [Token.stop]
        omega
    · rintro ⟨token, member, quoted, before, after⟩
      rcases List.mem_cons.mp member with rfl | inTokens
      · obtain ⟨rest, isQuote | isQuote⟩ := quoted
        · exact ⟨by omega, .inl (List.cons_eq_cons.mp isQuote).1⟩
        · exact ⟨by omega, .inr (List.cons_eq_cons.mp isQuote).1⟩
      · have behind := later token inTokens
        omega

end Agrees

/-- A scanner that is ready for a text agrees with the tokens of the text at every offset. -/
theorem agrees_readMany
    {line : Nat}
    {text : List Char}
    {tokens : List Token}
    (lexed : Script.Lexed line text tokens)
    {outer : Int}
    {state : Lexical}
    (ready : Lexical.Ready outer text state)
    (offset : Nat) :
    Agrees outer text tokens offset (state.readMany offset text) := by
  induction lexed generalizing outer state offset with
  | finish line =>
      rw [Lexical.readMany_nil]
      constructor
      · intro earlier token later split starts
        obtain ⟨rfl, _⟩ := List.append_eq_singleton_iff.mp split.symm |>.resolve_right (by simp)
        cases ready <;> simp [countMarks, Lexical.code]
      · exact fun _ _ _ => ready.inLiteral
      · simp [ready.inLiteral, Token.IsQuoted]
  | @skip line skipped rest tokens trivia onward inductionHypothesis =>
      obtain ⟨readyBehind, notLiteral⟩ := ready.trivia trivia
      by_cases inside : offset < skipped.length
      · refine .before (fun token member => ?_) (notLiteral offset inside.le)
        have lies := onward.lengths token member
        simp only [Token.start, List.length_append]
        omega
      · obtain ⟨count, rfl⟩ := Nat.exists_eq_add_of_le (Nat.le_of_not_lt inside)
        rw [Lexical.readMany_append]
        exact (inductionHypothesis readyBehind count).shift skipped onward.lengths
  | @token line first more behind kind tokens begins onward inductionHypothesis =>
      obtain rfl := ready.eq_code begins.notBlank
      obtain ⟨spelled, rfl, form, _⟩ := begins.follow
      obtain ⟨last, within⟩ :=
        Lexical.readMany_token (Lexical.shape_of_form form) begins.noComment outer
      by_cases inside : offset < spelled.length + 1
      · refine .first inside (fun token member => (onward.lengths token member).1) ?_ ?_
        · rcases Nat.eq_zero_or_pos offset with rfl | positive
          · exact .inl rfl
          · exact .inr positive
        · rcases Nat.eq_zero_or_pos offset with rfl | positive
          · simp [Lexical.readMany, Lexical.code, Lexical.inLiteral]
          · simp [within offset positive inside, positive]
      · obtain ⟨count, rfl⟩ := Nat.exists_eq_add_of_le (Nat.le_of_not_lt inside)
        rw [Lexical.readMany_add, last, List.drop_succ_cons, List.drop_left]
        exact (inductionHypothesis .code count).cons onward.lengths

/--
For every text with tokens, one scanner that is asked at offsets that do not decrease
agrees with the tokens at each of them.
-/
theorem scanner_agrees
    (text : List Char)
    (tokens : List Token)
    (offsets : List Nat)
    (tokenized : Script.tokenize text = .ok tokens)
    (increasing : offsets.Pairwise (· ≤ ·)) :
    List.Forall₂ (Agrees 0 text tokens) offsets (Lexical.asked text offsets) := by
  have everywhere (offset : Nat) : Agrees 0 text tokens offset (Lexical.atOffset text offset) :=
    agrees_readMany (Script.tokenize_eq_ok_iff.mp tokenized) .code offset
  have fromStart : (0 :: offsets).Pairwise (· ≤ ·) :=
    List.pairwise_cons.mpr ⟨fun offset _ => Nat.zero_le offset, increasing⟩
  have known : Lexical.asked text offsets = offsets.map (Lexical.atOffset text) :=
    Lexical.askedFrom_eq_map fromStart
  rw [known, List.forall₂_map_right_iff, List.forall₂_same]
  exact fun offset _ => everywhere offset

/-- A string that holds a brace and a comment mark, asked inside of it and behind it. -/
theorem scanner_agrees_around_string :
    let text := "\x7b\"\x7d//\"\x7d".toList
    let tokens : List Token :=
      [⟨.punct .leftBrace, 1, text, text.drop 1⟩,
        ⟨.text "\x7d//", 1, text.drop 1, text.drop 6⟩,
        ⟨.punct .rightBrace, 1, text.drop 6, []⟩,
        ⟨.endOfInput, 1, [], []⟩]
    Script.tokenize text = .ok tokens ∧ [1, 3, 6].Pairwise (· ≤ ·) ∧
      List.Forall₂ (Agrees 0 text tokens) [1, 3, 6] (Lexical.asked text [1, 3, 6]) ∧
      (Lexical.asked text [1, 3, 6]).map (fun state => (state.depth, state.inLiteral)) =
        [(1, false), (1, true), (1, false)] := by
  intro text tokens
  have tokenized : Script.tokenize text = .ok tokens := rfl
  have increasing : [1, 3, 6].Pairwise (· ≤ ·) := by decide
  exact ⟨tokenized, increasing, scanner_agrees text tokens _ tokenized increasing, by decide⟩

end LedSketch.Sketch
