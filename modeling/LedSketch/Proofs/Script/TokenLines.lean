import LedSketch.Script.Tokenizer
import Mathlib.Algebra.GroupWithZero.Nat
import Mathlib.Data.List.TakeDrop
import Mathlib.Data.List.TakeWhile

namespace LedSketch.Script

/-!
# The lines of tokens

White space and comments count the line ends they take.  A token takes none, unless it
is a literal in which the end of a line is escaped; those line ends are not counted.
-/

/-- A later text is reached from a text before the line of the text ends. -/
def SameLine (text rest : List Char) : Prop :=
  ∃ spelled, text = spelled ++ rest ∧ '\n' ∉ spelled

namespace SameLine

theorem refl (text : List Char) : SameLine text text := ⟨[], rfl, by simp⟩

/-- What is left of what is left on a line is left on it. -/
theorem trans
    {first second third : List Char}
    (before : SameLine first second)
    (after : SameLine second third) :
    SameLine first third := by
  obtain ⟨spelledBefore, rfl, quietBefore⟩ := before
  obtain ⟨spelledAfter, rfl, quietAfter⟩ := after
  refine ⟨spelledBefore ++ spelledAfter, by simp, ?_⟩
  simp [quietBefore, quietAfter]

/-- A character other than a line end may come first. -/
theorem cons
    {c : Char}
    {text rest : List Char}
    (noLineEnd : c ≠ '\n')
    (onward : SameLine text rest) :
    SameLine (c :: text) rest := by
  obtain ⟨spelled, rfl, quiet⟩ := onward
  exact ⟨c :: spelled, rfl, by simp [quiet, noLineEnd.symm]⟩

/-- To drop characters other than line ends stays on the line. -/
theorem dropWhile
    {test : Char → Bool}
    (stops : test '\n' = false)
    (text : List Char) :
    SameLine text (text.dropWhile test) := by
  refine ⟨text.takeWhile test, List.takeWhile_append_dropWhile.symm, ?_⟩
  intro member
  rw [List.mem_takeWhile_imp member] at stops
  contradiction

/-- To split characters off other than line ends stays on the line. -/
theorem span
    {test : Char → Bool}
    (stops : test '\n' = false)
    (text : List Char) :
    SameLine text (text.span test).2 := by
  rw [List.span_eq_takeWhile_dropWhile]
  exact dropWhile stops text

/-- What is left is the end of the text. -/
theorem isSuffix
    {text rest : List Char}
    (onward : SameLine text rest) :
    rest <:+ text := by
  obtain ⟨spelled, rfl, quiet⟩ := onward
  exact ⟨spelled, rfl⟩

end SameLine

namespace Lexeme

section Numbers

variable {text rest : List Char} {kind : TokenKind}

/-- A number with a radix is on one line. -/
theorem sameLine_readRadix
    {radix : Radix}
    (announced : radix? text = some radix)
    (read : readRadix radix text = .ok (kind, rest)) :
    SameLine text rest := by
  have digitsEnd : radix.isDigit '\n' = false ∧ SameLine text (text.drop 2) := by
    unfold radix? at announced
    split at announced <;> first | contradiction | cases announced
    all_goals exact ⟨by decide, .cons (by decide) (.cons (by decide) (.refl _))⟩
  obtain ⟨stops, opening⟩ := digitsEnd
  unfold readRadix at read
  dsimp only at read
  split at read
  · contradiction
  · cases read
    exact opening.trans ((SameLine.span stops _).trans (.dropWhile (by decide) _))

/-- A sign is on one line. -/
theorem sameLine_splitSign (text : List Char) : SameLine text (splitSign text).2 := by
  unfold splitSign
  split
  · exact .cons (by decide) (.refl _)
  · exact .cons (by decide) (.refl _)
  · exact .refl _

/-- An exponent is on one line. -/
theorem sameLine_splitExponent (text : List Char) :
    SameLine text (splitExponent text).2 := by
  unfold splitExponent
  split
  · next letter rest =>
      dsimp only
      split
      · next isExponent =>
          have noLineEnd : letter ≠ '\n' := by
            rintro rfl
            simp at isExponent
          exact .cons noLineEnd ((sameLine_splitSign rest).trans (.span (by decide) _))
      · exact .refl _
  · exact .refl _

/-- The parts of a decimal are on one line. -/
theorem sameLine_splitDecimal (text : List Char) : SameLine text (splitDecimal text).rest := by
  have whole : SameLine text (text.span Char.isDigit).2 := .span (by decide) text
  unfold splitDecimal
  dsimp only
  split
  · next afterPoint point =>
      rw [point] at whole
      have decimals : SameLine afterPoint (afterPoint.span Char.isDigit).2 :=
        .span (by decide) afterPoint
      exact whole.trans (.cons (by decide) (decimals.trans (sameLine_splitExponent _)))
  · exact whole.trans (sameLine_splitExponent _)

/-- A decimal is on one line. -/
theorem sameLine_readDecimal (read : readDecimal text = .ok (kind, rest)) :
    SameLine text rest := by
  unfold readDecimal at read
  dsimp only at read
  split at read
  · split at read
    · cases read
      exact (sameLine_splitDecimal text).trans (.dropWhile (by decide) _)
    · contradiction
  · cases read
    exact (sameLine_splitDecimal text).trans (.dropWhile (by decide) _)

/-- A number is on one line. -/
theorem sameLine_readNumber (read : readNumber text = .ok (kind, rest)) :
    SameLine text rest := by
  unfold readNumber at read
  split at read
  · next announced => exact sameLine_readRadix announced read
  · exact sameLine_readDecimal read

end Numbers

/-- A word is on one line. -/
theorem sameLine_readWord (text : List Char) : SameLine text (readWord text).2 := by
  unfold readWord
  dsimp only
  split <;> exact .span (by decide) text

/-- A mark is on one line. -/
theorem sameLine_readPunct
    {first : Char}
    {text rest : List Char}
    {kind : TokenKind}
    (read : readPunct first text = .ok (kind, rest)) :
    SameLine text rest := by
  unfold readPunct at read
  split at read
  · next punct after spelled =>
      cases read
      obtain ⟨⟨spelling, mark⟩, member, found⟩ := List.exists_of_findSome?_eq_some spelled
      dsimp only at found
      split at found
      · next begins =>
          cases found
          have quiet : ∀ entry ∈ Punct.spellings, '\n' ∉ entry.1.toList := by decide
          obtain ⟨after, rfl⟩ := List.isPrefixOf_iff_prefix.mp begins
          refine ⟨spelling.toList, ?_, quiet _ member⟩
          rw [← String.length_toList, List.drop_left]
      · contradiction
  · contradiction

/-- A literal takes a part of the text. -/
theorem isSuffix_literal?
    {quote : Char}
    {text content rest : List Char}
    (read : literal? quote text = some (content, rest)) :
    rest <:+ text := by
  induction text using literal?.induct quote generalizing content with
  | case1 | case2 | case3 => contradiction
  | case4 c text inductionHypothesis =>
      obtain ⟨⟨inner, after⟩, inside, same⟩ := Option.map_eq_some_iff.mp read
      cases same
      exact (inductionHypothesis inside).trans ⟨['\\', c], rfl⟩
  | case5 text notLineEnd notLast notEscape =>
      rw [literal?, if_pos rfl] at read
      · cases read
        exact List.suffix_cons ..
      · exact notLineEnd
      · exact notLast
      · exact notEscape
  | case6 c text notLineEnd notLast notEscape notQuote inductionHypothesis =>
      rw [literal?, if_neg notQuote] at read
      · obtain ⟨⟨inner, after⟩, inside, same⟩ := Option.map_eq_some_iff.mp read
        cases same
        exact (inductionHypothesis inside).trans (List.suffix_cons ..)
      · exact notLineEnd
      · exact notLast
      · exact notEscape

/-- The body of a comment stands between its opening and its end. -/
theorem text_of_commentBody?
    {text body rest : List Char}
    (read : commentBody? text = some (body, rest)) :
    text = body ++ '*' :: '/' :: rest := by
  induction text using commentBody?.induct generalizing body with
  | case1 => contradiction
  | case2 after =>
      cases read
      rfl
  | case3 c text notEnd inductionHypothesis =>
      rw [commentBody?] at read
      · obtain ⟨⟨inner, after⟩, inside, same⟩ := Option.map_eq_some_iff.mp read
        cases same
        rw [inductionHypothesis inside]
        rfl
      · exact notEnd

/-- A token takes a part of the text, and a line end only if it starts with a quote. -/
theorem readToken_spec
    {first : Char}
    {rest after : List Char}
    {kind : TokenKind}
    (read : readToken first rest = .ok (kind, after)) :
    after <:+ first :: rest ∧
      (first ≠ '"' → first ≠ '\'' → SameLine (first :: rest) after) := by
  unfold readToken at read
  split at read
  · have onward := sameLine_readNumber read
    exact ⟨onward.isSuffix, fun _ _ => onward⟩
  · split at read
    · next quoted =>
        unfold readString at read
        split at read
        · next literal =>
            cases read
            exact ⟨(isSuffix_literal? literal).trans (List.suffix_cons ..),
              fun notQuoted => (notQuoted quoted).elim⟩
        · contradiction
    · split at read
      · next quoted =>
          unfold readCharacter at read
          split at read
          · next literal =>
              cases read
              exact ⟨(isSuffix_literal? literal).trans (List.suffix_cons ..),
                fun _ notQuoted => (notQuoted quoted).elim⟩
          · contradiction
          · contradiction
      · split at read
        · have onward := sameLine_readWord (first :: rest)
          rw [Except.ok.inj read] at onward
          exact ⟨onward.isSuffix, fun _ _ => onward⟩
        · have onward := sameLine_readPunct read
          exact ⟨onward.isSuffix, fun _ _ => onward⟩

/-- A lexeme is a token, or it counts the line ends that it takes. -/
theorem read_cases
    {first : Char}
    {rest : List Char}
    {lexeme : Lexeme}
    (read : Lexeme.read first rest = .ok lexeme) :
    (lexeme.kind = none ∧
        ∃ skipped,
          first :: rest = skipped ++ lexeme.rest ∧
            lexeme.lineEnds = skipped.count '\n') ∨
      ∃ kind,
        lexeme.kind = some kind ∧
          lexeme.lineEnds = 0 ∧ readToken first rest = .ok (kind, lexeme.rest) := by
  unfold Lexeme.read at read
  split at read
  · next lineEnd =>
      cases read
      exact .inl ⟨rfl, ['\n'], by rw [lineEnd]; rfl, rfl⟩
  · next notLineEnd =>
      split at read
      · cases read
        exact .inl ⟨rfl, [first], rfl, by simp [notLineEnd]⟩
      · split at read
        · next afterOpening _ =>
            cases read
            have comment : SameLine afterOpening (afterOpening.dropWhile (· ≠ '\n')) :=
              .dropWhile (by decide) afterOpening
            obtain ⟨body, taken, quiet⟩ := comment
            refine .inl ⟨rfl, '/' :: '/' :: body, ?_, ?_⟩
            · rw [List.cons_append, List.cons_append, ← taken]
            · simp [List.count_eq_zero_of_not_mem quiet]
        · next afterOpening _ =>
            split at read
            · next body after comment =>
                cases read
                rw [text_of_commentBody? comment]
                exact .inl ⟨rfl, '/' :: '*' :: (body ++ ['*', '/']), by simp, by simp⟩
            · contradiction
        · cases token : readToken first rest with
          | error cause =>
              rw [token] at read
              contradiction
          | ok spelled =>
              rw [token] at read
              cases read
              exact .inr ⟨spelled.1, rfl, rfl, rfl⟩

/-- A lexeme does not count line ends that the text does not have. -/
theorem lineEnds_add_count_le
    {first : Char}
    {rest : List Char}
    {lexeme : Lexeme}
    (read : Lexeme.read first rest = .ok lexeme) :
    lexeme.lineEnds + lexeme.rest.count '\n' ≤ (first :: rest).count '\n' := by
  rcases read_cases read with
      ⟨_, skipped, whole, lineEnds⟩ | ⟨kind, _, lineEnds, token⟩
  · rw [whole, List.count_append, lineEnds]
  · rw [lineEnds, Nat.zero_add]
    exact (readToken_spec token).1.sublist.count_le _

end Lexeme

namespace Token

/-- The characters that a token stands for. -/
def spelling (token : Token) : List Char :=
  token.here.take (token.here.length - token.behind.length)

/-- The line ends inside of some tokens. -/
def lineEndsIn (tokens : List Token) : Nat :=
  (tokens.map fun token => token.spelling.count '\n').sum

/-- Whether a token is a literal in quotes. -/
def IsQuoted (token : Token) : Prop :=
  ∃ rest, token.here = '"' :: rest ∨ token.here = '\'' :: rest

/-- The line ends in tokens are those in each of them. -/
theorem lineEndsIn_cons
    (token : Token)
    (tokens : List Token) :
    lineEndsIn (token :: tokens) = token.spelling.count '\n' + lineEndsIn tokens := by
  simp [lineEndsIn]

/--
How a token lies in a text that begins on a line, after other tokens: its line counts
all line ends before it but those inside of the other tokens, which are in quotes.
-/
structure LiesIn
    (token : Token)
    (line : Nat)
    (text : List Char)
    (earlier : List Token) :
    Prop where
  counted :
    ∃ before,
      text = before ++ token.here ∧
        token.line + lineEndsIn earlier = line + before.count '\n'
  quoted : ∀ other ∈ earlier, '\n' ∈ other.spelling → other.IsQuoted

namespace LiesIn

variable {token : Token} {line : Nat} {text : List Char} {earlier : List Token}

/-- The first token lies at the start of its text. -/
theorem first
    (kind : TokenKind)
    (line : Nat)
    (text behind : List Char) :
    LiesIn ⟨kind, line, text, behind⟩ line text [] where
  counted := ⟨[], rfl, rfl⟩
  quoted := by simp

/-- What is skipped counts its line ends. -/
theorem skip
    {skipped : List Char}
    (lies : token.LiesIn (line + skipped.count '\n') text earlier) :
    token.LiesIn line (skipped ++ text) earlier where
  counted := by
    obtain ⟨before, rfl, counted⟩ := lies.counted
    refine ⟨skipped ++ before, by rw [List.append_assoc], ?_⟩
    rw [counted, List.count_append, Nat.add_assoc]
  quoted := lies.quoted

/-- A token that is read does not count its line ends. -/
theorem pass
    {first : Char}
    {rest : List Char}
    {kind : TokenKind}
    {startLine : Nat}
    (lies : token.LiesIn line text earlier)
    (read : Lexeme.readToken first rest = .ok (kind, text)) :
    token.LiesIn line (first :: rest) (⟨kind, startLine, first :: rest, text⟩ :: earlier) := by
  obtain ⟨⟨spelled, whole⟩, unquoted⟩ := Lexeme.readToken_spec read
  have spelling : (Token.mk kind startLine (first :: rest) text).spelling = spelled := by
    unfold Token.spelling
    dsimp only
    rw [← whole, List.length_append, Nat.add_sub_cancel, List.take_left]
  constructor
  · obtain ⟨before, rfl, counted⟩ := lies.counted
    refine ⟨spelled ++ before, by rw [← whole, List.append_assoc], ?_⟩
    rw [lineEndsIn_cons, spelling, List.count_append]
    omega
  · intro other member lineEnd
    rcases List.mem_cons.mp member with rfl | inEarlier
    · by_contra notQuoted
      have onward := unquoted
        (fun same => notQuoted ⟨rest, .inl (by rw [same])⟩)
        (fun same => notQuoted ⟨rest, .inr (by rw [same])⟩)
      obtain ⟨others, same, quiet⟩ := onward
      rw [spelling, List.append_cancel_right (whole.trans same)] at lineEnd
      exact quiet lineEnd
    · exact lies.quoted other inEarlier lineEnd

end LiesIn

end Token

/-- Each token lies in the text, behind the tokens before it. -/
theorem tokensWithin_liesIn
    {count line : Nat}
    {text : List Char}
    {tokens earlier later : List Token}
    {token : Token}
    (read : tokensWithin count line text = .ok tokens)
    (split : tokens = earlier ++ token :: later) :
    token.LiesIn line text earlier := by
  fun_induction tokensWithin count line text generalizing tokens earlier with
  | case1 count line =>
      cases read
      obtain ⟨rfl, same⟩ := List.append_eq_singleton_iff.mp split.symm |>.resolve_right (by simp)
      cases same
      exact .first ..
  | case2 line first rest => contradiction
  | case3 count line first rest cause failed => contradiction
  | case4 => contradiction
  | case5 count line first rest lexeme lexed tokens onward skipped inductionHypothesis =>
      cases read
      rcases Lexeme.read_cases lexed with
          ⟨_, text, whole, lineEnds⟩ | ⟨kind, isToken, _⟩
      · rw [whole]
        exact .skip (lineEnds ▸ inductionHypothesis onward split)
      · rw [skipped] at isToken
        contradiction
  | case6 count line first rest lexeme lexed tokens onward kind isToken inductionHypothesis =>
      cases read
      rcases Lexeme.read_cases lexed with
          ⟨skipped, _⟩ | ⟨same, isSame, lineEnds, read⟩
      · rw [skipped] at isToken
        contradiction
      · obtain rfl : kind = same := Option.some.inj (isToken.symm.trans isSame)
        cases earlier with
        | nil =>
            cases split
            exact .first ..
        | cons first earlier =>
            obtain ⟨rfl, rest⟩ := List.cons_eq_cons.mp split
            have lies := inductionHypothesis onward rest
            rw [lineEnds] at lies
            exact lies.pass read

/--
The line of every token, the end of the input included, counts the line ends before the
token but those inside of earlier tokens, and only literals in quotes have any.
-/
theorem line_add_lineEndsIn
    (text : List Char)
    (tokens earlier later : List Token)
    (token : Token)
    (tokenized : tokenize text = .ok tokens)
    (split : tokens = earlier ++ token :: later) :
    text.drop (token.start text) = token.here ∧
      token.line + Token.lineEndsIn earlier =
        1 + (text.take (token.start text)).count '\n' ∧
      ∀ other ∈ earlier, '\n' ∈ other.spelling → other.IsQuoted := by
  have lies := tokensWithin_liesIn tokenized split
  obtain ⟨before, rfl, counted⟩ := lies.counted
  have start : token.start (before ++ token.here) = before.length := by
    unfold Token.start
    rw [List.length_append, Nat.add_sub_cancel]
  rw [start, List.drop_left, List.take_left]
  exact ⟨rfl, counted, lies.quoted⟩

/-- A literal that spans two lines puts the tokens behind it one line too early. -/
theorem line_add_lineEndsIn_of_spanning_literal :
    let text := "\"\\\n\";\nx".toList
    let earlier : List Token :=
      [⟨.text "\n", 1, text, text.drop 4⟩,
        ⟨.punct .semicolon, 1, text.drop 4, text.drop 5⟩]
    let token : Token := ⟨.name "x", 2, ['x'], []⟩
    tokenize text = .ok (earlier ++ token :: [⟨.endOfInput, 2, [], []⟩]) ∧
      text.drop (token.start text) = token.here ∧
        token.line + Token.lineEndsIn earlier =
          1 + (text.take (token.start text)).count '\n' ∧
        ∀ other ∈ earlier, '\n' ∈ other.spelling → other.IsQuoted := by
  intro text earlier token
  have tokenized :
      tokenize text = .ok (earlier ++ token :: [⟨.endOfInput, 2, [], []⟩]) :=
    rfl
  exact ⟨tokenized, line_add_lineEndsIn text _ earlier _ token tokenized rfl⟩

/-- So the line of a token is not always one more than the line ends before it. -/
theorem line_ne_after_spanning_literal :
    ¬ ∀ (text : List Char) (tokens : List Token),
      tokenize text = .ok tokens →
      ∀ token ∈ tokens, token.line = 1 + (text.take (token.start text)).count '\n' := by
  intro allExact
  have late := allExact "\"\\\n\";\nbreak;".toList _ rfl
  revert late
  decide

end LedSketch.Script
