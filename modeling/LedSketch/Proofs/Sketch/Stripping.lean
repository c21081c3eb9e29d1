import LedSketch.Proofs.Sketch.Comments

namespace LedSketch.Sketch

/-!
# Stripping comments and the tokens

The rule that strips comments keeps all tokens and blanks of a text, and of a comment its
line ends.  The tokens are read again from what it leaves if no two of them run together.
-/

open Pattern
open Script (Token TokenKind Lexed Follows)
open Script.Lexeme

namespace Catalogue

/-- What the rule leaves of a match: a literal, or the line ends of a comment. -/
def remains (text : List Char) : List Char :=
  match text with
  | '"' :: _ => text
  | '\'' :: _ => text
  | text => text.filter (· = '\n')

theorem count_remains (text : List Char) : (remains text).count '\n' = text.count '\n' := by
  unfold remains
  split
  · rfl
  · rfl
  · exact List.count_filter (by decide)

/-- What the rule makes of a text from a place on. -/
def strippedFrom
    (turns count : Nat)
    (state : Lexical)
    (cursor : Cursor) :
    List Char :=
  (comments.segmentsFrom state (comments.pattern.piecesFrom turns count cursor)).flatMap
    Segment.after

section Steps

variable {turns count : Nat} {state : Lexical} {before : Option Char} {offset : Nat}

theorem strippedFrom_nil : strippedFrom turns count state ⟨before, [], offset⟩ = [] := by
  cases count <;> rfl

/-- What is not matched is kept. -/
theorem strippedFrom_plain
    {c : Char}
    {rest : List Char}
    (unmatched : comments.pattern.matchAt? turns ⟨before, c :: rest, offset⟩ = none) :
    strippedFrom turns (count + 1) state ⟨before, c :: rest, offset⟩ =
      c :: strippedFrom turns count (state.readMany 1 (c :: rest)) ⟨some c, rest, offset + 1⟩ := by
  simp only [strippedFrom, piecesFrom, unmatched, Rule.segmentsFrom, List.flatMap_cons]
  rfl

/-- A comment becomes its line ends, and a literal stays. -/
theorem strippedFrom_matched
    {skipped behind : List Char}
    (notEmpty : skipped ≠ [])
    (matched : MatchedUpTo turns ⟨before, skipped ++ behind, offset⟩ behind)
    (notLiteral : state.inLiteral = false) :
    ∃ cursor : Cursor,
      cursor.rest = behind ∧
        strippedFrom turns (count + 1) state ⟨before, skipped ++ behind, offset⟩ =
          remains skipped ++
            strippedFrom turns count
              (state.readMany skipped.length (skipped ++ behind)) cursor := by
  obtain ⟨found, isMatch, isBehind⟩ := matched
  obtain ⟨isFirst, sound⟩ := matchAt?_sound isMatch
  have passes := sound.passes
  have whole := passes.rest
  rw [isFirst, isBehind] at whole
  obtain rfl : skipped = found.text := List.append_cancel_right whole
  have taken : found.last.offset - found.first.offset = found.text.length := by
    rw [passes.offset, Nat.add_sub_cancel_left]
  have kept : (comments.segment state found).after = remains found.text := by
    have same : stripComment found = remains found.text := rfl
    simp only [Rule.segment, notLiteral, Bool.false_eq_true, if_false, comments,
      Replacement.apply?, same]
    split
    · next unchanged => exact unchanged.symm
    · simp [Segment.after, keepLines, count_remains]
  obtain ⟨c, rest, isText⟩ := List.exists_cons_of_ne_nil notEmpty
  refine ⟨found.last, isBehind, ?_⟩
  have pieces : comments.pattern.piecesFrom turns (count + 1)
      ⟨before, found.text ++ behind, offset⟩ =
        .found found :: comments.pattern.piecesFrom turns count found.last := by
    rw [isText, List.cons_append] at isMatch ⊢
    simp only [piecesFrom, isMatch]
  rw [strippedFrom, pieces, Rule.segmentsFrom, List.flatMap_cons, kept, taken, isFirst]
  rfl

end Steps

/-- What the rule makes of a text that it comes to outside of literals and comments. -/
def Strips (text out : List Char) : Prop :=
  ∃ turns count depth state cursor,
    Lexical.Ready depth text state ∧ cursor.rest = text ∧
      text.length ≤ count ∧ text.length ≤ turns ∧ strippedFrom turns count state cursor = out

namespace Strips

variable {text rest out : List Char}

theorem eq_nil (strips : Strips [] out) : out = [] := by
  obtain ⟨turns, count, depth, state, ⟨before, _, offset⟩, _, rfl, _, _, rfl⟩ := strips
  exact strippedFrom_nil

/-- A character that opens nothing is kept. -/
theorem code
    {c : Char}
    (notQuote : c ≠ '"' ∧ c ≠ '\'')
    (noComment : opensComment c rest = false)
    (strips : Strips (c :: rest) out) :
    ∃ onward, Strips rest onward ∧ out = c :: onward := by
  obtain ⟨turns, count, depth, state, ⟨before, _, offset⟩, ready, rfl, enough, enoughTurns, rfl⟩ :=
    strips
  rw [List.length_cons] at enough enoughTurns
  obtain ⟨count, rfl⟩ : ∃ fewer, count = fewer + 1 := ⟨count - 1, by omega⟩
  obtain ⟨deeper, isCode⟩ := ready.readMany_one notQuote noComment
  have stripped := @strippedFrom_plain turns count state before offset c rest
    (matchAt?_neutral notQuote noComment)
  rw [isCode] at stripped
  exact ⟨_, ⟨turns, count, deeper, _, _, .code, rfl, by omega, by omega, rfl⟩, stripped⟩

/-- Of a match the line ends are left, or all of it. -/
theorem matched
    {skipped : List Char}
    (notEmpty : skipped ≠ [])
    (isMatch :
      ∀ turns before offset,
        skipped.length ≤ turns → MatchedUpTo turns ⟨before, skipped ++ rest, offset⟩ rest)
    (behind :
      ∀ depth state,
        Lexical.Ready depth (skipped ++ rest) state →
        ∃ depth, Lexical.Ready depth rest (state.readMany skipped.length (skipped ++ rest)))
    (strips : Strips (skipped ++ rest) out) :
    ∃ onward, Strips rest onward ∧ out = remains skipped ++ onward := by
  obtain ⟨turns, count, depth, state, ⟨before, _, offset⟩, ready, rfl, enough, enoughTurns, rfl⟩ :=
    strips
  rw [List.length_append] at enough enoughTurns
  have taken := List.length_pos_of_ne_nil notEmpty
  obtain ⟨count, rfl⟩ : ∃ fewer, count = fewer + 1 := ⟨count - 1, by omega⟩
  obtain ⟨deeper, readyBehind⟩ := behind depth state ready
  obtain ⟨cursor, isRest, stripped⟩ :=
    @strippedFrom_matched turns count state before offset skipped rest notEmpty
      (isMatch turns before offset (by omega)) ready.inLiteral
  exact ⟨_, ⟨turns, count, deeper, _, cursor, readyBehind, isRest, by omega, by omega, rfl⟩,
    stripped⟩

theorem literal
    {quote : Char}
    {inner content : List Char}
    (isQuote : quote = '"' ∨ quote = '\'')
    (inside : Inside quote inner content)
    (oneLine : '\n' ∉ inner)
    (strips : Strips (quote :: (inner ++ quote :: rest)) out) :
    ∃ onward, Strips rest onward ∧ out = quote :: (inner ++ quote :: onward) := by
  have whole (behind : List Char) :
      quote :: (inner ++ quote :: behind) = (quote :: (inner ++ [quote])) ++ behind := by simp
  have notBlank : Text.isBlank quote = false := by
    rcases isQuote with rfl | rfl <;> decide
  have kept : remains (quote :: (inner ++ [quote])) = quote :: (inner ++ [quote]) := by
    rcases isQuote with rfl | rfl <;> rfl
  rw [whole] at strips
  obtain ⟨onward, stripsRest, same⟩ := strips.matched (by simp)
    (fun turns before offset enough => by
      rw [← whole]
      exact matchedUpTo_literal isQuote inside oneLine rest (by simp at enough; omega))
    (fun depth state ready => by
      obtain rfl := ready.eq_code notBlank
      have isCode := (Lexical.readMany_quoted isQuote inside depth rest).1
      refine ⟨depth, ?_⟩
      rw [List.length_cons, List.length_append, List.length_singleton, List.cons_append, isCode]
      exact .code)
  rw [kept, ← whole] at same
  exact ⟨onward, stripsRest, same⟩

/-- Of what is skipped by the tokenizer nothing but blanks and line ends is left. -/
theorem lineComment
    {body : List Char}
    (oneLine : '\n' ∉ body)
    (ends : Script.StopsAt (· ≠ '\n') rest)
    (strips : Strips ('/' :: '/' :: (body ++ rest)) out) :
    Strips rest out := by
  have nothing : remains ('/' :: '/' :: body) = [] := by
    have noLineEnds : body.filter (· = '\n') = [] := by
      rw [List.filter_eq_nil_iff]
      rintro c member isLineEnd
      rw [decide_eq_true_eq] at isLineEnd
      exact oneLine (isLineEnd ▸ member)
    simpa [remains] using noLineEnds
  obtain ⟨onward, stripsRest, same⟩ := @matched rest out ('/' :: '/' :: body) (by simp)
    (fun turns before offset enough =>
      matchedUpTo_line oneLine ends (by simp at enough; omega))
    (fun depth state ready => ⟨depth, (ready.trivia (.line oneLine ends)).1⟩) strips
  rw [nothing] at same
  exact same ▸ stripsRest

theorem blockComment
    {body : List Char}
    (closed : ¬ ['*', '/'] <:+: body)
    (strips : Strips ('/' :: '*' :: (body ++ '*' :: '/' :: rest)) out) :
    ∃ onward, Strips rest onward ∧ out = body.filter (· = '\n') ++ onward := by
  have whole :
      '/' :: '*' :: (body ++ '*' :: '/' :: rest) = '/' :: '*' :: (body ++ ['*', '/']) ++ rest := by
    simp
  have lineEnds : remains ('/' :: '*' :: (body ++ ['*', '/'])) = body.filter (· = '\n') := by
    simp [remains]
  rw [whole] at strips
  obtain ⟨onward, stripsRest, same⟩ := strips.matched (by simp)
    (fun turns before offset enough => by
      rw [← whole]
      exact matchedUpTo_block closed rest (by simp at enough; omega))
    (fun depth state ready => ⟨depth, (ready.trivia (.block closed)).1⟩)
  rw [lineEnds] at same
  exact ⟨onward, stripsRest, same⟩

/-- Neutral characters are kept. -/
theorem neutral
    {spelled : List Char}
    (others : ∀ c ∈ spelled, Lexical.isNeutral c = true)
    (strips : Strips (spelled ++ rest) out) :
    ∃ onward, Strips rest onward ∧ out = spelled ++ onward := by
  induction spelled generalizing out with
  | nil => exact ⟨out, strips, rfl⟩
  | cons c spelled inductionHypothesis =>
      obtain ⟨isNeutral, othersNeutral⟩ := List.forall_mem_cons.mp others
      simp only [Lexical.isNeutral, ne_eq, Bool.and_eq_true, decide_eq_true_eq] at isNeutral
      obtain ⟨_, stripsOthers, rfl⟩ :=
        strips.code ⟨isNeutral.1.1.1.2, isNeutral.1.1.2⟩ (by simp [opensComment, isNeutral])
      obtain ⟨onward, stripsRest, rfl⟩ := inductionHypothesis othersNeutral stripsOthers
      exact ⟨onward, stripsRest, rfl⟩

end Strips

theorem strips_apply (text : List Char) : Strips text (comments.apply text).1 :=
  ⟨text.length, text.length, 0, .initial, .start text, .code, rfl, le_rfl, le_rfl, rfl⟩

/-- A text with its tokens, and what is left of it where its comments are stripped. -/
inductive Stripped : List Char → List Token → List Char → Prop where
  | finish (line : Nat) : Stripped [] [⟨.endOfInput, line, [], []⟩] []
  | blank
      {c : Char}
      {rest out : List Char}
      {tokens : List Token}
      (isBlank : Text.isBlank c = true)
      (onward : Stripped rest tokens out) :
      Stripped (c :: rest) tokens (c :: out)
  | lineComment
      {body rest out : List Char}
      {tokens : List Token}
      (ends : Script.StopsAt (· ≠ '\n') rest)
      (onward : Stripped rest tokens out) :
      Stripped ('/' :: '/' :: (body ++ rest)) tokens out
  | blockComment
      {body rest out : List Char}
      {tokens : List Token}
      (closed : ¬ ['*', '/'] <:+: body)
      (onward : Stripped rest tokens out) :
      Stripped ('/' :: '*' :: (body ++ '*' :: '/' :: rest)) tokens
        (body.filter (· = '\n') ++ out)
  | token
      {line : Nat}
      {first : Char}
      {spelled behind out : List Char}
      {kind : TokenKind}
      {tokens : List Token}
      (begins : Begins first (spelled ++ behind) kind behind)
      (onward : Stripped behind tokens out) :
      Stripped (first :: (spelled ++ behind))
        (⟨kind, line, first :: (spelled ++ behind), behind⟩ :: tokens)
        (first :: (spelled ++ out))

section Tokens

variable {first : Char} {spelled behind out : List Char} {kind : TokenKind}

/-- A token on one line is kept. -/
theorem Strips.token
    (begins : Begins first (spelled ++ behind) kind behind)
    (form : Form (first :: spelled) kind)
    (oneLine : '\n' ∉ spelled)
    (strips : Strips (first :: (spelled ++ behind)) out) :
    ∃ onward, Strips behind onward ∧ out = first :: (spelled ++ onward) := by
  rcases Lexical.unquoted_or_quoted (Lexical.shape_of_form form) with
      ⟨notQuote, others⟩ | ⟨inner, content, isQuote, inside, rfl⟩
  · obtain ⟨_, stripsOthers, rfl⟩ := strips.code notQuote begins.noComment
    obtain ⟨onward, stripsBehind, rfl⟩ := stripsOthers.neutral others
    exact ⟨onward, stripsBehind, rfl⟩
  · rw [List.append_assoc, List.singleton_append] at strips
    obtain ⟨onward, stripsBehind, rfl⟩ :=
      strips.literal isQuote inside fun member => oneLine (List.mem_append_left _ member)
    exact ⟨onward, stripsBehind, by simp⟩

end Tokens

/-- What is left of a text is read off its tokens. -/
theorem Strips.stripped
    {line : Nat}
    {text out : List Char}
    {tokens : List Token}
    (strips : Strips text out)
    (lexed : Lexed line text tokens)
    (oneLine : ∀ token ∈ tokens, '\n' ∉ token.spelling) :
    Stripped text tokens out := by
  induction lexed generalizing out with
  | finish line =>
      rw [strips.eq_nil]
      exact .finish line
  | @skip line skipped rest tokens trivia onward inductionHypothesis =>
      cases trivia with
      | @blank c isBlank =>
          have neutral := Lexical.isNeutral_of_isBlank isBlank
          obtain ⟨_, stripsRest, rfl⟩ := strips.neutral (List.forall_mem_singleton.mpr neutral)
          exact .blank isBlank (inductionHypothesis stripsRest oneLine)
      | line noLineEnd ends =>
          exact .lineComment ends (inductionHypothesis (strips.lineComment noLineEnd ends) oneLine)
      | block closed =>
          have whole := strips
          simp only [List.cons_append, List.append_assoc, List.nil_append] at whole ⊢
          obtain ⟨_, stripsRest, rfl⟩ := whole.blockComment closed
          exact .blockComment closed (inductionHypothesis stripsRest oneLine)
  | @token line first more behind kind tokens begins onward inductionHypothesis =>
      obtain ⟨oneLineFirst, oneLineOthers⟩ := List.forall_mem_cons.mp oneLine
      obtain ⟨spelled, rfl, form, _⟩ := begins.follow
      rw [← List.cons_append, Script.Token.spelling_mk] at oneLineFirst
      obtain ⟨_, stripsBehind, rfl⟩ := strips.token begins form fun member =>
        oneLineFirst (List.mem_cons_of_mem _ member)
      exact .token begins (inductionHypothesis stripsBehind oneLineOthers)

/-- The rule strips the comments of a text with tokens that are on one line each. -/
theorem stripped_of_lexed
    {line : Nat}
    {text : List Char}
    {tokens : List Token}
    (lexed : Lexed line text tokens)
    (oneLine : ∀ token ∈ tokens, '\n' ∉ token.spelling)
    {depth : Int}
    {state : Lexical}
    (ready : Lexical.Ready depth text state)
    {turns count : Nat}
    {cursor : Cursor}
    (isText : cursor.rest = text)
    (enough : text.length ≤ count)
    (enoughTurns : text.length ≤ turns) :
    Stripped text tokens (strippedFrom turns count state cursor) := by
  have strips : Strips text (strippedFrom turns count state cursor) :=
    ⟨turns, count, depth, state, cursor, ready, isText, enough, enoughTurns, rfl⟩
  exact strips.stripped lexed oneLine

end Catalogue

end LedSketch.Sketch
