import LedSketch.Proofs.Script.Spellings
import LedSketch.Proofs.Script.TokenLines

namespace LedSketch.Script

/-!
# Texts as lexemes

A text that is accepted is made of tokens and of what is skipped between them, and the
tokens are read off such a text in that order.
-/

namespace Lexeme

/-- Whether a comment stands at the start of a text. -/
def opensComment
    (first : Char)
    (more : List Char) :
    Bool :=
  first = '/' && (more.head? = some '/' || more.head? = some '*')

/-- What is skipped in front of a text: a blank or a comment. -/
inductive Trivia (rest : List Char) : List Char → Prop where
  | blank
      {c : Char}
      (isBlank : Text.isBlank c = true) :
      Trivia rest [c]
  | line
      {body : List Char}
      (noLineEnd : '\n' ∉ body)
      (ends : StopsAt (· ≠ '\n') rest) :
      Trivia rest ('/' :: '/' :: body)
  | block
      {body : List Char}
      (closed : ¬ ['*', '/'] <:+: body) :
      Trivia rest ('/' :: '*' :: (body ++ ['*', '/']))

/-- What stands at the start of a text that starts with a token. -/
structure Begins
    (first : Char)
    (more : List Char)
    (kind : TokenKind)
    (behind : List Char) :
    Prop where
  notBlank : Text.isBlank first = false
  noComment : opensComment first more = false
  read : readToken first more = .ok (kind, behind)

/-- A comment ends at the first mark that ends comments. -/
theorem commentBody?_eq_some_iff
    {text body rest : List Char} :
    commentBody? text = some (body, rest) ↔
      ¬ ['*', '/'] <:+: body ∧ text = body ++ '*' :: '/' :: rest := by
  constructor
  · intro read
    refine ⟨?_, text_of_commentBody? read⟩
    induction text using commentBody?.induct generalizing body with
    | case1 => contradiction
    | case2 rest =>
        cases read
        simp
    | case3 c text notEnd inductionHypothesis =>
        rw [commentBody?] at read
        · obtain ⟨⟨inner, after⟩, inside, same⟩ := Option.map_eq_some_iff.mp read
          cases same
          rw [List.infix_cons_iff]
          rintro (begins | within)
          · obtain ⟨rfl, slash⟩ := List.cons_prefix_cons.mp begins
            obtain ⟨inner, rfl⟩ := slash
            rw [text_of_commentBody? inside] at notEnd
            exact notEnd _ rfl rfl
          · exact inductionHypothesis inside within
        · exact notEnd
  · rintro ⟨closed, rfl⟩
    induction body with
    | nil => rfl
    | cons c body inductionHypothesis =>
        rw [List.infix_cons_iff, not_or] at closed
        rw [List.cons_append, commentBody?, inductionHypothesis closed.2]
        · rfl
        · rintro after rfl same
          apply closed.1
          cases body with
          | nil => simp at same
          | cons next body =>
              obtain ⟨rfl, _⟩ := List.cons_eq_cons.mp same
              exact ⟨body, rfl⟩

variable {first : Char} {more rest skipped behind : List Char} {kind : TokenKind}

theorem Trivia.read (trivia : Trivia rest skipped) :
    ∃ first more,
      skipped ++ rest = first :: more ∧
        Lexeme.read first more = .ok ⟨none, skipped.count '\n', rest⟩ := by
  cases trivia with
  | @blank c isBlank =>
      refine ⟨c, rest, rfl, ?_⟩
      by_cases lineEnd : c = '\n'
      · simp [Lexeme.read, lineEnd]
      · simp [Lexeme.read, lineEnd, isBlank]
  | @line body noLineEnd ends =>
      refine ⟨'/', '/' :: (body ++ rest), rfl, ?_⟩
      have inBody : ∀ c ∈ body, decide (c ≠ '\n') = true := by
        intro c member
        rw [decide_eq_true_eq]
        rintro rfl
        exact noLineEnd member
      have behindBody := dropWhile_append inBody ends
      simp only [ne_eq, decide_not] at behindBody
      simp [Lexeme.read, Text.isBlank, behindBody, List.count_eq_zero_of_not_mem noLineEnd]
  | @block body closed =>
      refine ⟨'/', '*' :: (body ++ '*' :: '/' :: rest), by simp, ?_⟩
      have inside : commentBody? (body ++ '*' :: '/' :: rest) = some (body, rest) :=
        commentBody?_eq_some_iff.mpr ⟨closed, rfl⟩
      simp [Lexeme.read, Text.isBlank, inside]

theorem Begins.lexeme (begins : Begins first more kind behind) :
    Lexeme.read first more = .ok ⟨some kind, 0, behind⟩ := by
  obtain ⟨notBlank, noComment, read⟩ := begins
  have notLineEnd : first ≠ '\n' := by
    rintro rfl
    contradiction
  unfold Lexeme.read
  rw [if_neg notLineEnd, notBlank, if_neg Bool.false_ne_true]
  split
  · contradiction
  · contradiction
  · rw [read]
    rfl

/-- A lexeme that is read is skipped or a token. -/
theorem trivia_or_begins
    {lexeme : Lexeme}
    (read : Lexeme.read first more = .ok lexeme) :
    (∃ skipped,
        Trivia lexeme.rest skipped ∧ first :: more = skipped ++ lexeme.rest ∧
          lexeme.kind = none ∧ lexeme.lineEnds = skipped.count '\n') ∨
      ∃ kind,
        Begins first more kind lexeme.rest ∧ lexeme.kind = some kind ∧
          lexeme.lineEnds = 0 := by
  unfold Lexeme.read at read
  split at read
  · next lineEnd =>
      cases read
      exact .inl ⟨[first], .blank (by rw [lineEnd]; decide), rfl, rfl, by simp [lineEnd]⟩
  split at read
  · next notLineEnd isBlank =>
      cases read
      exact .inl ⟨[first], .blank isBlank, rfl, rfl, by simp [notLineEnd]⟩
  · next notLineEnd notBlank =>
      rw [Bool.not_eq_true] at notBlank
      split at read
      · next afterOpening =>
          cases read
          obtain ⟨body, behind, rfl, _, noLineEnd, ends⟩ :=
            span_cases (fun c => decide (c ≠ '\n')) afterOpening
          have quiet : '\n' ∉ body := fun member => by simpa using noLineEnd _ member
          refine .inl ⟨'/' :: '/' :: body, ?_, ?_, rfl, ?_⟩
          · rw [dropWhile_append noLineEnd ends]
            exact .line quiet ends
          · rw [dropWhile_append noLineEnd ends]
            rfl
          · simp [List.count_eq_zero_of_not_mem quiet]
      · next afterOpening =>
          split at read
          · next body after comment =>
              cases read
              obtain ⟨closed, rfl⟩ := commentBody?_eq_some_iff.mp comment
              exact .inl ⟨_, .block closed, by simp, rfl, by simp⟩
          · contradiction
      · next noLine noBlock =>
          rcases token : readToken first more with cause | ⟨kind, behind⟩
          · rw [token] at read
            contradiction
          rw [token] at read
          cases read
          refine .inr ⟨kind, ⟨notBlank, ?_, token⟩, rfl, rfl⟩
          by_contra comment
          simp only [opensComment, Bool.not_eq_false, Bool.and_eq_true, Bool.or_eq_true,
            decide_eq_true_eq, List.head?_eq_some_iff] at comment
          obtain ⟨rfl, ⟨after, rfl⟩ | ⟨after, rfl⟩⟩ := comment
          · exact noLine _ rfl rfl
          · exact noBlock _ rfl rfl

/-- A token does not depend on the text behind it, if that text cannot go on with it. -/
theorem Begins.follow (begins : Begins first more kind behind) :
    ∃ spelled,
      more = spelled ++ behind ∧ Form (first :: spelled) kind ∧
        ∀ after, Follows behind after →
          (startsNumber (first :: spelled) = true → NoExponent behind → NoExponent after) →
          Begins first (spelled ++ after) kind after := by
  obtain ⟨notBlank, noComment, read⟩ := begins
  obtain ⟨spelled, rfl, form, stable⟩ := readToken_follow read
  refine ⟨spelled, rfl, form, fun after follows noExponent =>
    ⟨notBlank, ?_, stable after follows noExponent⟩⟩
  by_contra comment
  simp only [opensComment, Bool.not_eq_false, Bool.and_eq_true, Bool.or_eq_true,
    decide_eq_true_eq] at comment
  obtain ⟨rfl, opened⟩ := comment
  simp only [opensComment, decide_true, Bool.true_and, Bool.or_eq_false_iff,
    decide_eq_false_iff_not] at noComment
  have onward := follows.append spelled
  rcases opened with slash | star
  · exact (onward '/' slash).elim (by decide) noComment.1
  · exact (onward '*' star).elim (by decide) noComment.2

end Lexeme

open Lexeme

/-- The tokens of a text that begins on a line. -/
inductive Lexed : Nat → List Char → List Token → Prop where
  | finish (line : Nat) : Lexed line [] [⟨.endOfInput, line, [], []⟩]
  | skip
      {line : Nat}
      {skipped rest : List Char}
      {tokens : List Token}
      (trivia : Trivia rest skipped)
      (onward : Lexed (line + skipped.count '\n') rest tokens) :
      Lexed line (skipped ++ rest) tokens
  | token
      {line : Nat}
      {first : Char}
      {more behind : List Char}
      {kind : TokenKind}
      {tokens : List Token}
      (begins : Begins first more kind behind)
      (onward : Lexed line behind tokens) :
      Lexed line (first :: more) (⟨kind, line, first :: more, behind⟩ :: tokens)

theorem Lexed.of_tokensWithin
    {count line : Nat}
    {text : List Char}
    {tokens : List Token}
    (read : tokensWithin count line text = .ok tokens) :
    Lexed line text tokens := by
  fun_induction tokensWithin count line text generalizing tokens with
  | case1 count line =>
      cases read
      exact .finish line
  | case2 | case3 | case4 => contradiction
  | case5 count line first rest lexeme lexed tokens onward skipped inductionHypothesis =>
      cases read
      rcases trivia_or_begins lexed with
          ⟨trivia, isTrivia, whole, _, lineEnds⟩ | ⟨kind, _, isToken, _⟩
      · rw [whole]
        exact .skip isTrivia (lineEnds ▸ inductionHypothesis onward)
      · rw [skipped] at isToken
        contradiction
  | case6 count line first rest lexeme lexed tokens onward kind isToken inductionHypothesis =>
      cases read
      rcases trivia_or_begins lexed with ⟨_, _, _, skipped, _⟩ | ⟨same, begins, isSame, lineEnds⟩
      · rw [skipped] at isToken
        contradiction
      · obtain rfl : kind = same := Option.some.inj (isToken.symm.trans isSame)
        exact .token begins (by simpa [lineEnds] using inductionHypothesis onward)

theorem Lexed.tokensWithin
    {line : Nat}
    {text : List Char}
    {tokens : List Token}
    (lexed : Lexed line text tokens)
    {count : Nat}
    (enough : text.length ≤ count) :
    tokensWithin count line text = .ok tokens := by
  induction lexed generalizing count with
  | finish line => simp [Script.tokensWithin]
  | @skip line skipped rest tokens trivia onward inductionHypothesis =>
      obtain ⟨first, more, whole, read⟩ := trivia.read
      rw [whole]
      have shorter : rest.length ≤ more.length := by
        have same := congrArg List.length whole
        have notEmpty : skipped.length ≠ 0 := by
          cases trivia <;> simp
        simp at same
        omega
      rw [whole, List.length_cons] at enough
      obtain ⟨count, rfl⟩ : ∃ less, count = less + 1 := ⟨count - 1, by omega⟩
      have onwardRead := @inductionHypothesis count (by omega)
      simp [Script.tokensWithin, read, onwardRead]
  | @token line first more behind kind tokens begins onward inductionHypothesis =>
      obtain ⟨spelled, rfl, _⟩ := begins.follow
      simp only [List.length_cons, List.length_append] at enough
      obtain ⟨count, rfl⟩ : ∃ less, count = less + 1 := ⟨count - 1, by omega⟩
      have onwardRead := @inductionHypothesis count (by omega)
      simp [Script.tokensWithin, begins.lexeme, onwardRead]

/-- The spelling of a token is what stands between its start and the text behind it. -/
theorem Token.spelling_mk
    (kind : TokenKind)
    (line : Nat)
    (spelled behind : List Char) :
    (Token.mk kind line (spelled ++ behind) behind).spelling = spelled := by
  simp [Token.spelling]

/-- Every token lies in its text. -/
theorem Lexed.lengths
    {line : Nat}
    {text : List Char}
    {tokens : List Token}
    (lexed : Lexed line text tokens) :
    ∀ token ∈ tokens,
      token.here.length ≤ text.length ∧ token.behind.length ≤ token.here.length := by
  induction lexed with
  | finish line => simp
  | skip trivia onward inductionHypothesis =>
      intro token member
      have ⟨here, behind⟩ := inductionHypothesis token member
      exact ⟨by simp only [List.length_append]; omega, behind⟩
  | @token line first more behind kind tokens begins onward inductionHypothesis =>
      obtain ⟨spelled, rfl, _⟩ := begins.follow
      intro token member
      simp only [List.length_cons, List.length_append]
      rcases List.mem_cons.mp member with rfl | inTokens
      · exact ⟨by simp, by simp only [List.length_cons, List.length_append]; omega⟩
      · have ⟨here, behind⟩ := inductionHypothesis token inTokens
        exact ⟨by omega, behind⟩

/-- The tokenizer accepts the texts that are made of lexemes, with their tokens. -/
theorem tokenize_eq_ok_iff
    {text : List Char}
    {tokens : List Token} :
    tokenize text = .ok tokens ↔ Lexed 1 text tokens :=
  ⟨Lexed.of_tokensWithin, fun lexed => lexed.tokensWithin le_rfl⟩

/-- A text has tokens of some kinds, on whatever line it begins. -/
def Reads
    (text : List Char)
    (kinds : List TokenKind) :
    Prop :=
  ∀ line, ∃ tokens, Lexed line text tokens ∧ tokens.map Token.kind = kinds

namespace Reads

variable {kinds : List TokenKind}

theorem nil : Reads [] [.endOfInput] := fun line => ⟨_, .finish line, rfl⟩

theorem skip
    {skipped rest : List Char}
    (trivia : Trivia rest skipped)
    (onward : Reads rest kinds) :
    Reads (skipped ++ rest) kinds := by
  intro line
  obtain ⟨tokens, lexed, same⟩ := onward (line + skipped.count '\n')
  exact ⟨tokens, .skip trivia lexed, same⟩

theorem blanks
    {skipped rest : List Char}
    (areBlank : ∀ c ∈ skipped, Text.isBlank c = true)
    (onward : Reads rest kinds) :
    Reads (skipped ++ rest) kinds := by
  induction skipped with
  | nil => exact onward
  | cons c skipped inductionHypothesis =>
      have behind := inductionHypothesis fun other member =>
        areBlank other (List.mem_cons_of_mem _ member)
      simpa using Reads.skip (.blank (areBlank c List.mem_cons_self)) behind

theorem token
    {first : Char}
    {more behind : List Char}
    {kind : TokenKind}
    (begins : Begins first more kind behind)
    (onward : Reads behind kinds) :
    Reads (first :: more) (kind :: kinds) := by
  intro line
  obtain ⟨tokens, lexed, same⟩ := onward line
  exact ⟨_, .token begins lexed, congrArg (kind :: ·) same⟩

theorem tokenize
    {text : List Char}
    (reads : Reads text kinds) :
    ∃ tokens, tokenize text = .ok tokens ∧ tokens.map Token.kind = kinds := by
  obtain ⟨tokens, lexed, same⟩ := reads 1
  exact ⟨tokens, tokenize_eq_ok_iff.mpr lexed, same⟩

end Reads

end LedSketch.Script
