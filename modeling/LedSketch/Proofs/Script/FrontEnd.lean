import LedSketch.Proofs.Script.Lexemes
import LedSketch.Proofs.Script.Progress

namespace LedSketch.Script

/-!
# From a text to a program

The tokenizer and the parser end on every text.  Each lexeme that is read moves the place
in the text on by a byte at least, to the start of a character or the end of the text.
Each function of the parser that has enough depth for its tokens makes the same of them
as with more depth, and what is parsed in the end is all that is in front of the end.
-/

section Lexemes

variable {text left : List Char} {first : Char} {rest : List Char} {lexeme : Lexeme}

/-- What is left of a text when the tokenizer has read some of its lexemes. -/
inductive Reaches (text : List Char) : List Char → Prop where
  | start : Reaches text text
  | onward
      {first : Char}
      {rest : List Char}
      {lexeme : Lexeme}
      (reaches : Reaches text (first :: rest))
      (read : Lexeme.read first rest = .ok lexeme) :
      Reaches text lexeme.rest

/-- The place in a text, counted in bytes, behind which something is left. -/
def place (text left : List Char) : String.Pos.Raw :=
  ⟨(String.ofList text).utf8ByteSize - (String.ofList left).utf8ByteSize⟩

/-- The place behind some characters is their length in bytes. -/
theorem place_append (passed left : List Char) :
    place (passed ++ left) left = (String.ofList passed).rawEndPos := by
  unfold place
  rw [String.ofList_append, String.utf8ByteSize_append, Nat.add_sub_cancel]
  rfl

/-- What is left of a text begins with a character of it. -/
theorem isValid_place (isLeft : left <:+ text) :
    (place text left).IsValid (String.ofList text) := by
  obtain ⟨passed, rfl⟩ := isLeft
  rw [place_append, String.ofList_append, String.Pos.Raw.isValid_iff_exists_append]
  exact ⟨_, _, rfl, rfl⟩

/-- To take characters is to move on by bytes. -/
theorem place_lt
    {taken after : List Char}
    (some : taken ≠ [])
    (isLeft : taken ++ after <:+ text) :
    place text (taken ++ after) < place text after := by
  obtain ⟨passed, rfl⟩ := isLeft
  have bytes : (String.ofList taken).utf8ByteSize ≠ 0 := by
    rw [ne_eq, String.utf8ByteSize_eq_zero_iff, String.ofList_eq_empty_iff]
    exact some
  simp only [String.Pos.Raw.lt_iff, place, String.ofList_append, String.utf8ByteSize_append]
  omega

/-- A lexeme takes a character at least. -/
theorem Lexeme.exists_taken (read : Lexeme.read first rest = .ok lexeme) :
    ∃ taken, taken ≠ [] ∧ first :: rest = taken ++ lexeme.rest := by
  obtain ⟨skipped, trivia, whole, _⟩ | ⟨kind, begins, _⟩ := trivia_or_begins read
  · exact ⟨skipped, by cases trivia <;> exact List.cons_ne_nil _ _, whole⟩
  · obtain ⟨spelled, whole, _⟩ := begins.follow
    exact ⟨first :: spelled, List.cons_ne_nil _ _, congrArg (first :: ·) whole⟩

/-- What is left is the end of the text. -/
theorem Reaches.isSuffix (reaches : Reaches text left) : left <:+ text := by
  induction reaches with
  | start => exact List.suffix_refl text
  | onward _ read inductionHypothesis =>
      obtain ⟨taken, _, whole⟩ := Lexeme.exists_taken read
      rw [whole] at inductionHypothesis
      exact (List.suffix_append _ _).trans inductionHypothesis

/-- No token that is read is the end of the input. -/
theorem Lexeme.kind_ne_endOfInput
    {kind : TokenKind}
    (read : readToken first rest = .ok (kind, left)) :
    kind ≠ .endOfInput := by
  rintro rfl
  simp only [readToken, readNumber, readRadix, readDecimal, readString, readCharacter, readWord,
    readPunct] at read
  repeat' split at read
  all_goals simp at read

/-- Tokens end with the end of the input. -/
theorem Lexed.ended
    {line : Nat}
    {tokens : List Token}
    (lexed : Lexed line text tokens) :
    Ended tokens := by
  induction lexed with
  | finish line => exact .last rfl
  | skip _ _ inductionHypothesis => exact inductionHypothesis
  | token begins _ inductionHypothesis =>
      exact .more (Lexeme.kind_ne_endOfInput begins.read) inductionHypothesis

/-- A token that cannot be read has another cause than nesting. -/
theorem Lexeme.readToken_finishes
    {cause : ParseCause}
    (failed : readToken first rest = .error cause) :
    cause ≠ .nestedTooDeeply := by
  rintro rfl
  simp only [readToken, readNumber, readRadix, readDecimal, readString, readCharacter,
    readPunct] at failed
  repeat' split at failed
  all_goals simp at failed

/-- No lexeme is too deep. -/
theorem Lexeme.read_finishes
    {cause : ParseCause}
    (failed : Lexeme.read first rest = .error cause) :
    cause ≠ .nestedTooDeeply := by
  unfold Lexeme.read at failed
  split at failed
  · contradiction
  split at failed
  · contradiction
  split at failed
  · contradiction
  · split at failed
    · contradiction
    · cases failed
      exact ParseCause.noConfusion
  · cases token : readToken first rest with
    | error found =>
        rw [token] at failed
        cases failed
        exact readToken_finishes token
    | ok spelled =>
        rw [token] at failed
        contradiction

/-- A token takes no more than there is. -/
theorem Lexeme.length_rest (read : Lexeme.read first rest = .ok lexeme) :
    lexeme.rest.length ≤ rest.length := by
  obtain ⟨taken, some, whole⟩ := Lexeme.exists_taken read
  have lengths := congrArg List.length whole
  have longer := List.length_pos_iff.mpr some
  rw [List.length_append, List.length_cons] at lengths
  omega

/-- As many lexemes as there are characters are enough, and more change nothing. -/
theorem tokensWithin_eq
    {count other : Nat}
    (line : Nat)
    (enough : text.length ≤ count)
    (more : count ≤ other) :
    tokensWithin other line text = tokensWithin count line text := by
  induction count generalizing text line other with
  | zero =>
      obtain rfl := List.eq_nil_of_length_eq_zero (Nat.le_zero.mp enough)
      cases other <;> rfl
  | succ count inductionHypothesis =>
      obtain ⟨other, rfl⟩ : ∃ less, other = less + 1 := ⟨other - 1, by omega⟩
      cases text with
      | nil => rfl
      | cons first rest =>
          rw [List.length_cons] at enough
          unfold tokensWithin
          cases read : Lexeme.read first rest with
          | error cause => rfl
          | ok lexeme =>
              have shorter := Lexeme.length_rest read
              simp only
              rw [inductionHypothesis (line + lexeme.lineEnds) (by omega) (by omega)]

/-- Enough turns read all tokens. -/
theorem tokensWithin_finishes
    {count line : Nat}
    {error : ParseError}
    (enough : text.length ≤ count)
    (failed : tokensWithin count line text = .error error) :
    error.cause ≠ .nestedTooDeeply := by
  fun_induction tokensWithin count line text with
  | case1 => contradiction
  | case2 => contradiction
  | case3 count line first rest cause read =>
      cases failed
      exact Lexeme.read_finishes read
  | case4 count line first rest lexeme read found onward inductionHypothesis =>
      cases failed
      have shorter := Lexeme.length_rest read
      rw [List.length_cons] at enough
      exact inductionHypothesis (by omega) onward
  | case5 => contradiction
  | case6 => contradiction

end Lexemes

namespace Parser

variable {α : Type}

/-- The depth that is enough for some tokens, as a parse starts with it. -/
def enough (tokens : List Token) : Nat := depthPerToken * (tokens.length + 1)

/--
A function of the parser, at every depth.  From ended tokens it leaves ended tokens and
takes some at least.  With enough depth for the tokens it does not fail for want of depth,
and neither more depth nor tokens behind the end change what it does.
-/
structure Proceeds
    (least : Nat)
    (parser : Nat → Parser α) :
    Prop where
  takes :
    ∀ depth tokens value rest,
      Ended tokens →
      (parser depth).run tokens = .ok (value, rest) →
      Ended rest ∧ ∃ taken, tokens = taken ++ rest ∧ least ≤ taken.length
  finishes :
    ∀ depth tokens error,
      Ended tokens →
      enough tokens ≤ depth →
      (parser depth).run tokens = .error error →
      error.cause ≠ .nestedTooDeeply
  again :
    ∀ depth tokens behind,
      Ended tokens →
      enough tokens ≤ depth →
      (parser depth).run (tokens ++ behind) =
        leaving behind ((parser (enough tokens)).run tokens)

/-- A bound that all but reaches the depth is enough. -/
theorem Proceeds.of_advances
    {least : Nat}
    {parser : Nat → Parser α}
    (bound : Nat → Nat)
    (advances :
      ∀ depth other,
        depth ≤ other → Advances (bound depth) least (parser depth) (parser other))
    (large : ∀ depth, depth ≤ bound depth + 1) :
    Proceeds least parser where
  takes depth tokens value rest ended ran :=
    (advances depth depth (Nat.le_refl _)).takes tokens value rest ended trivial ran
  finishes depth tokens error ended isEnough ran := by
    have room := large depth
    unfold enough depthPerToken at isEnough
    exact (advances depth depth (Nat.le_refl _)).finishes tokens error ended trivial (by omega) ran
  again depth tokens behind ended isEnough := by
    have room := large (enough tokens)
    refine (advances _ depth isEnough).again tokens behind ended trivial ?_
    unfold enough depthPerToken at room ⊢
    omega

/-- The functions of the parser, each with the number of tokens it takes at least. -/
structure AllProceed : Prop where
  expression : Proceeds 1 expression
  conditional : Proceeds 1 conditional
  operators : ∀ level, level ≤ Operator.levels → Proceeds 1 (operators · level)
  moreOperators :
    ∀ level left, level < Operator.levels → Proceeds 0 (moreOperators · level left)
  unary : Proceeds 1 unary
  suffixed : Proceeds 1 fun depth => primary depth >>= suffixes depth
  suffixes : ∀ operand, Proceeds 0 (suffixes · operand)
  expressions : ∀ close, Proceeds 1 (expressions · close)
  primary : Proceeds 1 primary
  condition : Proceeds 1 condition
  declarators : Proceeds 1 declarators
  parameters : Proceeds 1 parameters
  steps : Proceeds 1 steps
  caseTest : Proceeds 1 caseTest
  statement : Proceeds 1 statement
  function : ∀ line, Proceeds 1 (function line)
  block : Proceeds 1 block
  switchCases : Proceeds 1 switchCases
  caseBody : Proceeds 0 caseBody
  program : Proceeds 0 program

/-- Each parser proceeds. -/
theorem allProceed : AllProceed where
  expression :=
    .of_advances _ (fun depth => (expressionsAdvance depth).expression) (by omega)
  conditional :=
    .of_advances _ (fun depth => (expressionsAdvance depth).conditional) (by omega)
  operators level isLevel :=
    .of_advances _ (fun depth other => (expressionsAdvance depth).operators level other isLevel)
      (by omega)
  moreOperators level left isLevel :=
    .of_advances _
      (fun depth other => (expressionsAdvance depth).moreOperators level other left isLevel)
      (by omega)
  unary := .of_advances _ (fun depth => (expressionsAdvance depth).unary) (by omega)
  suffixed :=
    .of_advances id (fun depth other deeper =>
      ((expressionsAdvance depth).primary other deeper).bind depth 0
        (fun operand => (expressionsAdvance depth).suffixes operand other deeper)
        (by simp only [id]; omega) (by omega)) (by simp)
  suffixes operand :=
    .of_advances _ (fun depth => (expressionsAdvance depth).suffixes operand) (by omega)
  expressions close :=
    .of_advances _ (fun depth => (expressionsAdvance depth).expressions close) (by omega)
  primary := .of_advances _ (fun depth => (expressionsAdvance depth).primary) (by omega)
  condition := .of_advances _ (fun _ _ => AdvancesFrom.condition) (by omega)
  declarators := .of_advances _ (fun _ _ => AdvancesFrom.declarators) (by omega)
  parameters := .of_advances _ (fun _ _ => AdvancesFrom.parameters) (by omega)
  steps := .of_advances _ (fun _ _ => AdvancesFrom.steps) (by omega)
  caseTest := .of_advances _ (fun _ _ => AdvancesFrom.caseTest) (by omega)
  statement := .of_advances _ (fun depth => (statementsAdvance depth).statement) (by omega)
  function line := .of_advances _ (fun depth => (statementsAdvance depth).function line) (by omega)
  block := .of_advances _ (fun depth => (statementsAdvance depth).block) (by omega)
  switchCases := .of_advances _ (fun depth => (statementsAdvance depth).switchCases) (by omega)
  caseBody := .of_advances _ (fun depth => (statementsAdvance depth).caseBody) (by omega)
  program := .of_advances _ (fun _ _ => AdvancesFrom.program) (by omega)

end Parser

/--
The front end on a text: the tokenizer moves on and ends, the functions of the parser move
on and end, and what is parsed are all tokens in front of the end.
-/
structure Finishes (text : List Char) : Prop where
  lexemes :
    ∀ first rest lexeme,
      Reaches text (first :: rest) →
      Lexeme.read first rest = .ok lexeme →
      place text (first :: rest) < place text lexeme.rest ∧
        (place text lexeme.rest).IsValid (String.ofList text)
  tokenizer : ∀ count, text.length ≤ count → tokensWithin count 1 text = tokenize text
  tokens :
    match tokenize text with
    | .ok tokens => Ended tokens
    | .error error => error.cause ≠ .nestedTooDeeply
  parser : Parser.AllProceed
  parsed : ∀ error, parse text = .error error → error.cause ≠ .nestedTooDeeply
  whole :
    ∀ tokens program,
      tokenize text = .ok tokens →
      parse text = .ok program →
      ∃ front last,
        tokens = front ++ [last] ∧
          last.kind = .endOfInput ∧
          (∀ token ∈ front, token.kind ≠ .endOfInput) ∧
          ∀ depth,
            Parser.enough tokens ≤ depth →
            (Parser.program depth).run tokens = .ok (program.body, [last])

section Texts

variable {text : List Char} {tokens : List Token}

/-- Each token moves on in the text, to a place between characters. -/
theorem lexeme_moves
    {first : Char}
    {rest : List Char}
    {lexeme : Lexeme}
    (reaches : Reaches text (first :: rest))
    (read : Lexeme.read first rest = .ok lexeme) :
    place text (first :: rest) < place text lexeme.rest ∧
      (place text lexeme.rest).IsValid (String.ofList text) := by
  obtain ⟨taken, some, whole⟩ := Lexeme.exists_taken read
  refine ⟨?_, isValid_place (reaches.onward read).isSuffix⟩
  have isLeft := reaches.isSuffix
  rw [whole] at isLeft ⊢
  exact place_lt some isLeft

/-- The tokens of a text end with the end of the input. -/
theorem tokenize_ended (tokenized : tokenize text = .ok tokens) : Ended tokens :=
  (tokenize_eq_ok_iff.mp tokenized).ended

/-- A text is taken apart into tokens, or has an error of its own. -/
theorem tokenize_finishes (text : List Char) :
    match tokenize text with
    | .ok tokens => Ended tokens
    | .error error => error.cause ≠ .nestedTooDeeply := by
  cases tokenized : tokenize text with
  | ok tokens => exact tokenize_ended tokenized
  | error error => exact tokensWithin_finishes (Nat.le_refl _) tokenized

theorem parseTokens_finishes
    {error : ParseError}
    (ended : Ended tokens)
    (failed : parseTokens tokens = .error error) :
    error.cause ≠ .nestedTooDeeply := by
  unfold parseTokens at failed
  cases ran : (Parser.program (Parser.enough tokens)).run tokens with
  | ok outcome =>
      rw [← Parser.enough, ran] at failed
      contradiction
  | error found =>
      rw [← Parser.enough, ran] at failed
      cases failed
      exact Parser.allProceed.program.finishes _ tokens error ended (Nat.le_refl _) ran

/-- A text is parsed, or has an error of its own. -/
theorem parse_finishes
    {error : ParseError}
    (failed : parse text = .error error) :
    error.cause ≠ .nestedTooDeeply := by
  unfold parse at failed
  cases tokenized : tokenize text with
  | ok tokens =>
      rw [tokenized] at failed
      exact parseTokens_finishes (tokenize_ended tokenized) failed
  | error found =>
      have finishes := tokenize_finishes text
      rw [tokenized] at failed finishes
      cases failed
      exact finishes

/-- A parse leaves the end of the input, with all tokens in front of it taken. -/
theorem parse_whole
    {program : Program}
    (tokenized : tokenize text = .ok tokens)
    (parsed : parse text = .ok program) :
    ∃ front last,
      tokens = front ++ [last] ∧
        last.kind = .endOfInput ∧
        (∀ token ∈ front, token.kind ≠ .endOfInput) ∧
        ∀ depth,
          Parser.enough tokens ≤ depth →
          (Parser.program depth).run tokens = .ok (program.body, [last]) := by
  have ended := tokenize_ended tokenized
  unfold parse at parsed
  rw [tokenized] at parsed
  simp only [parseTokens] at parsed
  cases ran : (Parser.program (Parser.enough tokens)).run tokens with
  | error error =>
      rw [← Parser.enough, ran] at parsed
      contradiction
  | ok outcome =>
      obtain ⟨body, rest⟩ := outcome
      rw [← Parser.enough, ran] at parsed
      cases parsed
      obtain ⟨endedRest, front, rfl, _⟩ :=
        Parser.allProceed.program.takes _ tokens body rest ended ran
      obtain ⟨last, rfl, isLast⟩ := endedRest.eq_singleton (Parser.isEnd_of_run_program ran)
      refine ⟨front, last, rfl, isLast, ended.notEnd_of_mem, fun depth isEnough => ?_⟩
      have same := Parser.allProceed.program.again depth (front ++ [last]) [] ended isEnough
      rw [ran, List.append_nil] at same
      exact same

end Texts

/-- The front end finishes on every text. -/
theorem frontEnd_finishes (text : List Char) : Finishes text where
  lexemes _ _ _ := lexeme_moves
  tokenizer _ enough := tokensWithin_eq 1 (Nat.le_refl _) enough
  tokens := tokenize_finishes text
  parser := Parser.allProceed
  parsed _ := parse_finishes
  whole _ _ := parse_whole

end LedSketch.Script
