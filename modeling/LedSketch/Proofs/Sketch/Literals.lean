import LedSketch.Proofs.Sketch.Scanner

namespace LedSketch.Sketch

/-!
# The literals of a text

The scanner of the rules comes to the literals of a text one after the other.  In a text
that is accepted they are its tokens in quotes.
-/

open Script (Token TokenKind tokenize)
open Script.Lexeme

namespace Lexical

/-- Whether a place lies inside a comment. -/
def inComment (state : Lexical) : Bool :=
  match state.mode with
  | .lineComment => true
  | .blockComment => true
  | _ => false

theorem inLiteral_of_inComment
    {state : Lexical}
    (inside : state.inComment = true) :
    state.inLiteral = false := by
  obtain ⟨mode, _, _, _⟩ := state
  cases mode <;> first | rfl | contradiction

/-- What is known apart from the braces. -/
def flat (state : Lexical) : Lexical := { state with depth := 0 }

@[simp] theorem inLiteral_flat (state : Lexical) : state.flat.inLiteral = state.inLiteral := rfl

@[simp] theorem passed_flat (state : Lexical) : state.flat.passed = state.passed := rfl

/-- Braces have no part in what else is known. -/
theorem flat_read
    (state : Lexical)
    (c : Char)
    (following : Option Char) :
    (state.flat.read c following).flat = (state.read c following).flat := by
  obtain ⟨mode, escaped, passed, depth⟩ := state
  simp only [flat, read, readCode, readQuoted]
  cases escaped <;> cases passed <;> cases mode <;>
    simp only [Bool.false_eq_true, if_false, if_true] <;> split_ifs <;> rfl

end Lexical

/-- How far the literals of a text have been read. -/
structure Reading where
  state : Lexical
  /-- The literal that is open, from its quote on. -/
  opened : List Char
  /-- The literals that are complete. -/
  literals : List (List Char)

namespace Reading

/-- In code, with some complete literals. -/
def code (literals : List (List Char)) : Reading := ⟨.code 0, [], literals⟩

/-- Read one character, unless it is a line end that leaves a literal incomplete. -/
def read
    (reading : Reading)
    (c : Char)
    (following : Option Char) :
    Option Reading :=
  let state := (reading.state.read c following).flat
  if state.inLiteral then
    some ⟨state, reading.opened ++ [c], reading.literals⟩
  else if !reading.state.inLiteral then
    some ⟨state, [], reading.literals⟩
  else if c = '\n' then
    none
  else
    some ⟨state, [], reading.literals ++ [reading.opened ++ [c]]⟩

/-- Read a text that a character follows, if it does not end there. -/
def readAll
    (reading : Reading) :
    List Char → Option Char → Option Reading
  | [], _ => some reading
  | c :: rest, following =>
      (reading.read c (rest.head?.or following)).bind fun next => next.readAll rest following

end Reading

/-- The literals of a text in their order, if all of them are complete. -/
def literals (text : List Char) : Option (List (List Char)) :=
  ((Reading.code []).readAll text none).bind fun last =>
    if last.state.inLiteral then none else some last.literals

namespace Reading

variable {reading middle last : Reading} {text first second rest : List Char}
  {following : Option Char}

theorem readAll_append :
    reading.readAll (first ++ second) following =
      (reading.readAll first (second.head?.or following)).bind fun middle =>
        middle.readAll second following := by
  induction first generalizing reading with
  | nil => rfl
  | cons c first inductionHypothesis =>
      have behind : (first ++ second).head?.or following =
          first.head?.or (second.head?.or following) := by
        rw [List.head?_append, Option.or_assoc]
      rw [List.cons_append, readAll, readAll, behind, Option.bind_assoc]
      exact congrArg _ (funext fun next => inductionHypothesis)

/-- A reading knows of a place what the scanner knows, apart from the braces. -/
theorem state_of_readAll
    {state : Lexical}
    (same : reading.state = state.flat)
    (read : reading.readAll text rest.head? = some last) :
    last.state = (state.readMany text.length (text ++ rest)).flat := by
  induction text generalizing reading state with
  | nil =>
      cases read
      exact same
  | cons c text inductionHypothesis =>
      rw [readAll, Option.bind_eq_some_iff] at read
      obtain ⟨next, isNext, onward⟩ := read
      rw [← List.head?_append] at isNext
      refine inductionHypothesis ?_ onward
      change next.state = (state.read c (text ++ rest).head?).flat
      rw [← Lexical.flat_read, ← same]
      unfold Reading.read at isNext
      dsimp only at isNext
      split_ifs at isNext <;> cases isNext <;> rfl

/-- Where no place is inside of a literal, no literal is read. -/
theorem readAll_outside
    {state : Lexical}
    {literals : List (List Char)}
    (outside : ∀ count ≤ text.length, (state.readMany count (text ++ rest)).inLiteral = false) :
    (Reading.mk state.flat [] literals).readAll text rest.head? =
      some ⟨(state.readMany text.length (text ++ rest)).flat, [], literals⟩ := by
  induction text generalizing state with
  | nil => rfl
  | cons c text inductionHypothesis =>
      have here : state.inLiteral = false := outside 0 (Nat.zero_le _)
      have next : (state.read c (text ++ rest).head?).inLiteral = false :=
        outside 1 (by simp)
      have step : (Reading.mk state.flat [] literals).read c (text ++ rest).head? =
          some ⟨(state.read c (text ++ rest).head?).flat, [], literals⟩ := by
        simp only [read, Lexical.flat_read, Lexical.inLiteral_flat, here, next, Bool.not_false,
          Bool.false_eq_true, if_false, if_true]
      rw [readAll, ← List.head?_append, step, Option.bind_some]
      exact inductionHypothesis fun count within => outside (count + 1) (Nat.succ_le_succ within)

/-- The inside of a literal is read as it is spelled. -/
theorem readAll_inside
    {quote : Char}
    {inner content opened : List Char}
    {literals : List (List Char)}
    (inside : Inside quote inner content) :
    (Reading.mk ⟨.quote quote, false, false, 0⟩ opened literals).readAll inner following =
      some ⟨⟨.quote quote, false, false, 0⟩, opened ++ inner, literals⟩ := by
  induction inside generalizing opened with
  | nothing => simp [readAll]
  | plain notQuote notEscape notLineEnd inside inductionHypothesis =>
      simp [readAll, read, Lexical.read, Lexical.readQuoted, notQuote, notEscape, notLineEnd,
        Lexical.flat, Lexical.inLiteral, inductionHypothesis]
  | escape inside inductionHypothesis =>
      simp [readAll, read, Lexical.read, Lexical.readQuoted, Lexical.flat, Lexical.inLiteral,
        inductionHypothesis]

theorem read_quote
    {quote : Char}
    (isQuote : quote = '"' ∨ quote = '\'')
    (literals : List (List Char)) :
    (code literals).read quote following =
      some ⟨⟨.quote quote, false, false, 0⟩, [quote], literals⟩ := by
  rcases isQuote with rfl | rfl <;> rfl

/-- A literal is read as a whole. -/
theorem readAll_quoted
    {quote : Char}
    {inner content : List Char}
    {literals : List (List Char)}
    (isQuote : quote = '"' ∨ quote = '\'')
    (inside : Inside quote inner content) :
    (code literals).readAll (quote :: (inner ++ [quote])) following =
      some (code (literals ++ [quote :: (inner ++ [quote])])) := by
  have closes (following : Option Char) :
      (Reading.mk ⟨.quote quote, false, false, 0⟩ (quote :: inner) literals).read quote following =
        some (code (literals ++ [quote :: (inner ++ [quote])])) := by
    rcases isQuote with rfl | rfl <;> rfl
  rw [readAll, read_quote isQuote, Option.bind_some, readAll_append, readAll_inside inside,
    Option.bind_some, List.singleton_append, readAll, closes]
  rfl

/-- A literal that is closed before the end of a text has an inside there. -/
theorem inside_of_readAll
    {quote : Char}
    {opened : List Char}
    {literals : List (List Char)}
    (read : (Reading.mk ⟨.quote quote, false, false, 0⟩ opened literals).readAll text following =
      some last)
    (ends : last.state.inLiteral = false) :
    ∃ inner content onward,
      Inside quote inner content ∧ text = inner ++ quote :: onward ∧
        (code (literals ++ [opened ++ (inner ++ [quote])])).readAll onward following =
          some last := by
  induction size : text.length using Nat.strong_induction_on generalizing text opened with
  | _ size inductionHypothesis =>
      subst size
      rcases text with _ | ⟨c, text⟩
      · cases read
        contradiction
      rw [readAll, Option.bind_eq_some_iff] at read
      obtain ⟨next, isNext, onward⟩ := read
      by_cases escape : c = '\\'
      · subst escape
        obtain rfl : next = ⟨⟨.quote quote, true, false, 0⟩, opened ++ ['\\'], literals⟩ :=
          (Option.some.inj isNext).symm
        rcases text with _ | ⟨escaped, text⟩
        · cases onward
          contradiction
        obtain ⟨inner, content, behind, inside, rfl, readBehind⟩ :=
          inductionHypothesis text.length (by simp only [List.length_cons]; omega) onward rfl
        exact ⟨'\\' :: escaped :: inner, _, behind, .escape inside, rfl, by simpa using readBehind⟩
      by_cases closing : c = quote
      · subst closing
        by_cases lineEnd : c = '\n'
        · subst lineEnd
          contradiction
        · have closed : (Reading.mk ⟨.quote c, false, false, 0⟩ opened literals).read c
              (text.head?.or following) = some (code (literals ++ [opened ++ [c]])) := by
            simp [Reading.read, Lexical.read, Lexical.readQuoted, escape, lineEnd, Lexical.flat,
              Lexical.inLiteral, code, Lexical.code]
          rw [closed] at isNext
          cases isNext
          exact ⟨[], [], text, .nothing, rfl, onward⟩
      by_cases lineEnd : c = '\n'
      · subst lineEnd
        simp [Reading.read, Lexical.read, Lexical.readQuoted, Lexical.flat,
          Lexical.inLiteral] at isNext
      · have stays : (Reading.mk ⟨.quote quote, false, false, 0⟩ opened literals).read c
            (text.head?.or following) =
              some ⟨⟨.quote quote, false, false, 0⟩, opened ++ [c], literals⟩ := by
          simp [Reading.read, Lexical.read, Lexical.readQuoted, escape, closing, lineEnd,
            Lexical.flat, Lexical.inLiteral]
        rw [stays] at isNext
        cases isNext
        obtain ⟨inner, content, behind, inside, rfl, readBehind⟩ :=
          inductionHypothesis text.length (by simp) onward rfl
        exact ⟨c :: inner, _, behind, .plain closing escape lineEnd inside, rfl,
          by simpa using readBehind⟩

/-- Of a token a literal is read if it begins with a quote. -/
theorem readAll_token
    {first : Char}
    {spelled behind : List Char}
    {kind : TokenKind}
    (shape : Lexical.Shape first spelled kind)
    (noComment : opensComment first (spelled ++ behind) = false)
    (literals : List (List Char)) :
    (code literals).readAll (first :: spelled) behind.head? =
      some (code (literals ++
        if first = '"' ∨ first = '\'' then [first :: spelled] else [])) := by
  rcases Lexical.unquoted_or_quoted shape with
      ⟨notQuote, -⟩ | ⟨inner, content, isQuote, inside, rfl⟩
  · have isQuote := not_or.mpr notQuote
    obtain ⟨isCode, within⟩ := Lexical.readMany_token shape noComment 0
    have outside : ∀ count ≤ (first :: spelled).length,
        ((Lexical.code 0).readMany count (first :: spelled ++ behind)).inLiteral = false := by
      intro count bounded
      rcases Nat.eq_zero_or_pos count with rfl | positive
      · rfl
      rcases Nat.eq_or_lt_of_le bounded with rfl | before
      · rw [List.length_cons, List.cons_append, isCode]
        rfl
      · exact Bool.eq_false_iff.mpr fun inLiteral =>
          isQuote ((within count positive before).mp inLiteral)
    have read := @readAll_outside (first :: spelled) behind (.code 0) literals outside
    rw [List.length_cons, List.cons_append, isCode] at read
    rw [if_neg isQuote, List.append_nil]
    exact read
  · rw [if_pos isQuote]
    exact readAll_quoted isQuote inside

end Reading

/-- The spellings of the tokens that are literals. -/
def quotedSpellings (tokens : List Token) : List (List Char) :=
  (tokens.map Token.spelling).filter fun spelled =>
    spelled.head? = some '"' || spelled.head? = some '\''

theorem quotedSpellings_cons
    {first : Char}
    {spelled behind : List Char}
    {kind : TokenKind}
    {line : Nat}
    {tokens : List Token} :
    quotedSpellings (⟨kind, line, first :: (spelled ++ behind), behind⟩ :: tokens) =
      (if first = '"' ∨ first = '\'' then [first :: spelled] else []) ++
        quotedSpellings tokens := by
  have spelling :
      (Token.mk kind line (first :: (spelled ++ behind)) behind).spelling = first :: spelled :=
    Token.spelling_mk kind line (first :: spelled) behind
  rw [quotedSpellings, List.map_cons, spelling, List.filter_cons]
  by_cases isQuote : first = '"' ∨ first = '\''
  · rw [if_pos isQuote, if_pos (by simpa using isQuote)]
    rfl
  · rw [if_neg isQuote, if_neg (by simpa using isQuote)]
    rfl

/-- The literals that are read are the tokens in quotes. -/
theorem readAll_of_lexed
    {line : Nat}
    {text : List Char}
    {tokens : List Token}
    (lexed : Script.Lexed line text tokens)
    {depth : Int}
    {state : Lexical}
    (ready : Lexical.Ready depth text state)
    (literals : List (List Char)) :
    ∃ last,
      (Reading.mk state.flat [] literals).readAll text none = some last ∧
        last.state.inLiteral = false ∧ last.literals = literals ++ quotedSpellings tokens := by
  induction lexed generalizing depth state literals with
  | finish line => exact ⟨_, rfl, ready.inLiteral, by simp [quotedSpellings, Token.spelling]⟩
  | @skip line skipped rest tokens trivia onward inductionHypothesis =>
      obtain ⟨readyBehind, outside⟩ := ready.trivia trivia
      obtain ⟨last, read, ends, same⟩ := inductionHypothesis readyBehind literals
      refine ⟨last, ?_, ends, same⟩
      rw [Reading.readAll_append, Option.or_none, Reading.readAll_outside outside]
      exact read
  | @token line first more behind kind tokens begins onward inductionHypothesis =>
      obtain rfl := ready.eq_code begins.notBlank
      obtain ⟨spelled, rfl, form, _⟩ := begins.follow
      have readToken :=
        Reading.readAll_token (Lexical.shape_of_form form) begins.noComment literals
      obtain ⟨last, read, ends, same⟩ := inductionHypothesis (@Lexical.Ready.code depth behind) _
      refine ⟨last, ?_, ends, ?_⟩
      · rw [← List.cons_append, Reading.readAll_append, Option.or_none]
        exact Option.bind_eq_some_iff.mpr ⟨_, readToken, read⟩
      · rw [same, quotedSpellings_cons, List.append_assoc]

/-- The literals of a text that is accepted are its tokens in quotes. -/
theorem literals_of_tokenize
    {text : List Char}
    {tokens : List Token}
    (tokenized : tokenize text = .ok tokens) :
    literals text = some (quotedSpellings tokens) := by
  obtain ⟨last, read, ends, same⟩ :=
    readAll_of_lexed (Script.tokenize_eq_ok_iff.mp tokenized) (@Lexical.Ready.code 0 text) []
  have started : (Reading.code []).readAll text none = some last := read
  rw [literals, started, Option.bind_some, ends, if_neg Bool.false_ne_true, same, List.nil_append]

end LedSketch.Sketch
