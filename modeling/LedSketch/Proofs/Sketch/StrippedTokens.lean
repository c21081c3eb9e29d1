import LedSketch.Proofs.Sketch.Stripping
import Mathlib.Data.List.Chain

namespace LedSketch.Sketch

/-!
# The tokens of a stripped text

A text without its comments has the tokens that it had before, unless two tokens with only
comments between them run together.
-/

open Script (Token TokenKind Lexed Follows Reads tokenize)
open Script.Lexeme

/-- A text goes on over block comments without a line end, perhaps none, to a later text. -/
inductive OverComments (last : List Char) : List Char → Prop where
  | here : OverComments last last
  | comment
      {body rest : List Char}
      (closed : ¬ ['*', '/'] <:+: body)
      (noLineEnd : '\n' ∉ body)
      (onward : OverComments last rest) :
      OverComments last ('/' :: '*' :: (body ++ '*' :: '/' :: rest))

/--
Two tokens that do not run together: the first is read in front of the spelling of the
second one, and the second is not the letter of an exponent behind a number.
-/
structure Apart (left right : Token) : Prop where
  read :
    ∃ first more,
      left.spelling ++ right.spelling = first :: more ∧
        Script.Lexeme.read first more = .ok ⟨some left.kind, 0, right.spelling⟩
  noExponent :
    startsNumber left.spelling = true → right.spelling ≠ ['e'] ∧ right.spelling ≠ ['E']

/-- No two tokens run together that have at most block comments without a line end between them. -/
def StayApart (tokens : List Token) : Prop :=
  tokens.IsChain fun left right => OverComments right.here left.behind → Apart left right

namespace Catalogue

/-- An exponent does not begin with a whole token other than its letter. -/
theorem noExponent_append
    {first : Char}
    {spelled behind : List Char}
    {kind : TokenKind}
    (begins : Begins first (spelled ++ behind) kind behind)
    (notLetter : first :: spelled ≠ ['e'] ∧ first :: spelled ≠ ['E'])
    (before : NoExponent (first :: spelled))
    (after : List Char) :
    NoExponent (first :: (spelled ++ after)) := by
  by_cases letter : first = 'e' ∨ first = 'E'
  · have isStart : Text.isNameStart first = true := by
      rcases letter with rfl | rfl <;> decide
    obtain ⟨word, same, chars, _⟩ := readWord_follow isStart
      (Except.ok.inj ((readToken_of_isNameStart isStart).symm.trans begins.read))
    obtain rfl := List.append_cancel_right same
    rcases spelled with _ | ⟨c, spelled⟩
    · rcases letter with rfl | rfl <;> simp at notLetter
    · have isName := chars c (by simp)
      have noSign : c ≠ '+' ∧ c ≠ '-' := by
        constructor <;>
          · rintro rfl
            contradiction
      have signs (text : List Char) : splitSign (c :: text) = ([], c :: text) := by
        simp [splitSign, noSign]
      simp only [NoExponent, splitExponent, List.cons_append, signs,
        List.span_eq_takeWhile_dropWhile] at before ⊢
      by_cases digit : c.isDigit = true
      · simp [digit, letter] at before
      · simp [digit]
  · rw [not_or] at letter
    exact noExponent_cons letter.1 letter.2 _

/-- How a stripped text begins. -/
inductive Start (text : List Char) (tokens : List Token) : List Char → Prop where
  | ended : Start text tokens []
  | blank
      {c : Char}
      {rest : List Char}
      (isBlank : Text.isBlank c = true) :
      Start text tokens (c :: rest)
  | token
      {line : Nat}
      {first : Char}
      {spelled behind rest : List Char}
      {kind : TokenKind}
      {later : List Token}
      (begins : Begins first (spelled ++ behind) kind behind)
      (isBehind : OverComments (first :: (spelled ++ behind)) text)
      (isFirst : tokens = ⟨kind, line, first :: (spelled ++ behind), behind⟩ :: later) :
      Start text tokens (first :: (spelled ++ rest))

theorem Stripped.start
    {text out : List Char}
    {tokens : List Token}
    (stripped : Stripped text tokens out) :
    Start text tokens out := by
  induction stripped with
  | finish line => exact .ended
  | blank isBlank onward inductionHypothesis => exact .blank isBlank
  | @lineComment body rest out tokens ends onward inductionHypothesis =>
      cases onward with
      | finish line => exact .ended
      | blank isBlank onward => exact .blank isBlank
      | lineComment | blockComment => exact absurd (ends '/' rfl) (by decide)
      | token begins onward =>
          obtain rfl : _ = '\n' := by simpa using ends _ rfl
          exact absurd begins.notBlank (by decide)
  | @blockComment body rest out tokens closed onward inductionHypothesis =>
      rcases lineEnds : body.filter (· = '\n') with _ | ⟨c, others⟩
      · have noLineEnd : '\n' ∉ body := by
          intro member
          have kept := List.mem_filter_of_mem (p := (· = '\n')) member (by decide)
          rw [lineEnds] at kept
          contradiction
        rw [List.nil_append]
        cases inductionHypothesis with
        | ended => exact .ended
        | blank isBlank => exact .blank isBlank
        | token begins isBehind isFirst =>
            exact .token begins (.comment closed noLineEnd isBehind) isFirst
      · have isLineEnd : c = '\n' := by
          have kept : c ∈ body.filter (· = '\n') := by simp [lineEnds]
          simpa using (List.mem_filter.mp kept).2
        exact .blank (by rw [isLineEnd]; decide)
  | token begins onward inductionHypothesis => exact .token begins .here rfl

/-- A token is read in front of what is left of the text behind it. -/
theorem begins_stripped
    {line : Nat}
    {first : Char}
    {spelled behind out : List Char}
    {kind : TokenKind}
    {tokens : List Token}
    (begins : Begins first (spelled ++ behind) kind behind)
    (start : Start behind tokens out)
    (apart : StayApart (⟨kind, line, first :: (spelled ++ behind), behind⟩ :: tokens)) :
    Begins first (spelled ++ out) kind out := by
  obtain ⟨same, isSame, _, stable⟩ := begins.follow
  obtain rfl := List.append_cancel_right isSame
  cases start with
  | ended => exact stable [] .nil fun _ _ => rfl
  | @blank c rest isBlank =>
      refine stable _ (.blank isBlank behind rest) fun _ _ => ?_
      apply noExponent_cons <;>
        · rintro rfl
          contradiction
  | @token nextLine next nextSpelled nextBehind rest nextKind later nextBegins isBehind isFirst =>
      subst isFirst
      obtain ⟨firstApart, _⟩ := List.isChain_cons_cons.mp apart
      have ⟨isRead, notLetter⟩ := firstApart isBehind
      rw [← List.cons_append, ← List.cons_append, Script.Token.spelling_mk,
        Script.Token.spelling_mk] at isRead notLetter
      obtain ⟨c, more, whole, isToken⟩ := isRead
      obtain ⟨rfl, rfl⟩ := List.cons_eq_cons.mp whole
      rcases trivia_or_begins isToken with
          ⟨_, _, _, isTrivia, _⟩ | ⟨sameKind, between, isKind, _⟩
      · contradiction
      · cases isKind
        obtain ⟨word, isWord, _, stableBetween⟩ := between.follow
        obtain rfl := List.append_cancel_right isWord
        refine stableBetween _ (fun c => .inr) fun number before => ?_
        exact noExponent_append nextBegins (notLetter number) before rest

/-- What is left of a text where no two tokens run together has its tokens. -/
theorem Stripped.reads
    {text out : List Char}
    {tokens : List Token}
    (stripped : Stripped text tokens out)
    (apart : StayApart tokens) :
    Reads out (tokens.map Token.kind) := by
  induction stripped with
  | finish line => exact .nil
  | @blank c rest out tokens isBlank onward inductionHypothesis =>
      exact .skip (.blank isBlank) (inductionHypothesis apart)
  | lineComment ends onward inductionHypothesis => exact inductionHypothesis apart
  | @blockComment body rest out tokens closed onward inductionHypothesis =>
      have lineEnds : ∀ c ∈ body.filter (· = '\n'), Text.isBlank c = true := by
        intro c member
        obtain rfl : c = '\n' := by simpa using (List.mem_filter.mp member).2
        decide
      exact .blanks lineEnds (inductionHypothesis apart)
  | token begins onward inductionHypothesis =>
      exact .token (begins_stripped begins onward.start apart) (inductionHypothesis apart.tail)

/--
The rule that strips comments leaves the tokens of a text as they are if each of them is on
one line and no two of them run together where only comments stand between them.
-/
theorem comments_keep_tokens
    (text : List Char)
    (tokens : List Token)
    (tokenized : tokenize text = .ok tokens)
    (oneLine : ∀ token ∈ tokens, '\n' ∉ token.spelling)
    (apart : StayApart tokens) :
    ∃ remaining,
      tokenize (comments.apply text).1 = .ok remaining ∧
        remaining.map Token.kind = tokens.map Token.kind := by
  have lexed := Script.tokenize_eq_ok_iff.mp tokenized
  have stripped : Stripped text tokens (comments.apply text).1 :=
    stripped_of_lexed lexed oneLine .code rfl le_rfl le_rfl
  exact (stripped.reads apart).tokenize

/-- A name and a semicolon with a comment between them do not run together. -/
theorem comments_keep_tokens_of_semicolon :
    let text := "a/* b */;".toList
    let tokens : List Token :=
      [⟨.name "a", 1, text, text.drop 1⟩, ⟨.punct .semicolon, 1, [';'], []⟩,
        ⟨.endOfInput, 1, [], []⟩]
    tokenize text = .ok tokens ∧ (∀ token ∈ tokens, '\n' ∉ token.spelling) ∧
      StayApart tokens ∧ (comments.apply text).1 = ['a', ';'] ∧
      ∃ remaining,
        tokenize (comments.apply text).1 = .ok remaining ∧
          remaining.map Token.kind = tokens.map Token.kind := by
  intro text tokens
  have tokenized : tokenize text = .ok tokens := rfl
  have oneLine : ∀ token ∈ tokens, '\n' ∉ token.spelling := by
    simp only [tokens, List.forall_mem_cons, List.not_mem_nil, false_implies, implies_true,
      and_true]
    decide
  have apart : StayApart tokens := by
    simp only [StayApart, tokens, List.isChain_cons_cons, List.isChain_singleton, and_true]
    refine ⟨fun _ => ⟨⟨'a', [';'], rfl, rfl⟩, ?_⟩, fun _ => ⟨⟨';', [], rfl, rfl⟩, ?_⟩⟩ <;>
      exact fun number => absurd number (by decide)
  exact ⟨tokenized, oneLine, apart, by decide,
    comments_keep_tokens text tokens tokenized oneLine apart⟩

/-- Two names with only a comment between them run together. -/
theorem comments_join_names :
    ¬ ∀ (text : List Char) (tokens : List Token),
      tokenize text = .ok tokens →
      ∃ remaining,
        tokenize (comments.apply text).1 = .ok remaining ∧
          remaining.map Token.kind = tokens.map Token.kind := by
  intro allKept
  obtain ⟨remaining, tokenized, same⟩ := allKept "a/**/b".toList _ rfl
  have joined : tokenize (comments.apply "a/**/b".toList).1 =
      .ok [⟨.name "ab", 1, ['a', 'b'], []⟩, ⟨.endOfInput, 1, [], []⟩] :=
    rfl
  rw [joined] at tokenized
  cases tokenized
  exact absurd (congrArg List.length same) (by decide)

/--
Each token has to be on one line: a literal with an escaped line end is not matched, so that
its closing quote begins a match that takes the mark of the next comment along.
-/
theorem comments_cut_after_escaped_lineEnd :
    let text := "\"\\\n\"/*\"//*/y".toList
    ∃ tokens,
      tokenize text = .ok tokens ∧ StayApart tokens ∧
        ∀ remaining, tokenize (comments.apply text).1 ≠ .ok remaining := by
  intro text
  let tokens : List Token :=
    [⟨.text "\n", 1, text, text.drop 4⟩, ⟨.name "y", 1, ['y'], []⟩, ⟨.endOfInput, 1, [], []⟩]
  have tokenized : tokenize text = .ok tokens := rfl
  have apart : StayApart tokens := by
    simp only [StayApart, tokens, List.isChain_cons_cons, List.isChain_singleton, and_true]
    refine ⟨fun _ => ⟨⟨'"', _, rfl, rfl⟩, ?_⟩, fun _ => ⟨⟨'y', [], rfl, rfl⟩, ?_⟩⟩ <;>
      exact fun number => absurd number (by decide)
  have stripped : (comments.apply text).1 = "\"\\\n\"/*\"".toList := by decide
  have notClosed : tokenize "\"\\\n\"/*\"".toList = .error ⟨1, .unterminatedComment⟩ := rfl
  refine ⟨tokens, tokenized, apart, ?_⟩
  rw [stripped, notClosed]
  exact fun _ => nofun

end Catalogue

end LedSketch.Sketch
