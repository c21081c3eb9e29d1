import LedSketch.Proofs.Script.ParserLines
import LedSketch.Proofs.Script.StatementsRead

namespace LedSketch.Script

/-!
# Programs and their tokens

A program that parses is parsed again from the tokens that it is rendered as.
-/

/-- Every expression that the parser builds is read back from its tokens. -/
theorem Expr.readable_closed : Expr.Closed (fun _ => True) Expr.Readable where
  line _ := trivial
  int _ := .int _
  float _ := .float _
  text _ := .text _
  bool _ := .bool _
  undefined _ := .undefined
  name _ := .name _
  array _ := .array
  unary _ part := part.unary _
  apply first second := first.apply second _
  conditional := .conditional
  assign isMark isTarget := .assign isTarget isMark
  update _ part := part.update _ _
  cast _ part := part.cast _
  await _ := .await
  call _ := .call
  member _ part := part.member _
  index _ := .index

theorem ForInit.Holds.readable
    {init : ForInit}
    (holds : init.Holds (fun _ => True) Expr.Readable) :
    init.Readable := by
  cases init with
  | nothing => exact trivial
  | declare line declarators => exact holds.2
  | expr value => exact holds

/-- Every statement that the parser builds is read back from its tokens. -/
theorem Stmt.readable_closed :
    Stmt.Closed (fun _ => True) Expr.Readable Stmt.Readable where
  declare _ nonempty parts := .declare parts nonempty
  function _ := .function
  expr := .expr
  block := .block
  branch := .branch
  whileLoop := .whileLoop
  doLoop := .doLoop
  forLoop started := .forLoop started.readable
  switch tested parts := .switch tested fun case member =>
    ⟨(parts case member).1, (parts case member).2⟩
  returns _ := .returns
  breaks _ := .breaks
  continues _ := .continues
  empty := .empty

/-- The statements of a program that parses are read back from their tokens. -/
theorem readable_of_parse
    {text : List Char}
    {program : Program}
    (parsed : parse text = .ok program) :
    ∀ stmt ∈ program.body, stmt.Readable := by
  have read :=
    @tokensWithin_supplied text.length 1 _ 1 text (Nat.le_refl 1) (Nat.le_refl _)
  unfold parse tokenize at parsed
  cases ran : tokensWithin text.length 1 text with
  | error error =>
      rw [ran] at parsed
      contradiction
  | ok tokens =>
      rw [ran] at read parsed
      have supplied : Supplied (fun _ => True) tokens := ⟨fun _ _ => trivial, read.ends⟩
      have closed := parseTokens_closed Expr.readable_closed Stmt.readable_closed supplied
      simp only at parsed
      rw [parsed] at closed
      exact closed

/-- The tokens of a program are parsed as the program if its statements are read back. -/
theorem parseTokens_spell
    {program : Program}
    (readable : ∀ stmt ∈ program.body, stmt.Readable)
    (line : Nat) :
    parseTokens (spelledOn line (program.spell ++ [.endOfInput])) =
      .ok (program.onLine line) := by
  have size :
      (spelledOn line (program.spell ++ [.endOfInput])).length = program.spell.length + 1 := by
    simp [spelledOn]
  have enough :
      32 * program.spell.length <
        Parser.depthPerToken *
          ((spelledOn line (program.spell ++ [.endOfInput])).length + 1) := by
    simp only [size, Parser.depthPerToken]
    omega
  have read := @Parser.run_program line _ program.body readable enough
  simp only [parseTokens, spelledOn_append, spelledOn_cons, spelledOn_nil, Program.spell,
    Program.onLine] at read ⊢
  simp only [read]

/--
A program that parses is rendered as tokens that are parsed as the same program again, on
the line that the tokens are put on.
-/
theorem parse_spell
    {text : List Char}
    {program : Program}
    (parsed : parse text = .ok program)
    (line : Nat) :
    parseTokens (spelledOn line (program.spell ++ [.endOfInput])) =
      .ok (program.onLine line) :=
  parseTokens_spell (readable_of_parse parsed) line

/-- The parentheses around a sum stay when it is multiplied, those around a name go. -/
theorem parse_spell_of_product :
    let text := "(a+b)*(c);".toList
    let program : Program :=
      ⟨[.expr (.binary 1 .mul (.binary 1 .add (.name 1 "a") (.name 1 "b")) (.name 1 "c"))]⟩
    parse text = .ok program ∧
      program.spell =
        [.punct .leftParen, .name "a", .punct .plus, .name "b", .punct .rightParen,
          .punct .star, .name "c", .punct .semicolon] ∧
      parseTokens (spelledOn 7 (program.spell ++ [.endOfInput])) =
        .ok (program.onLine 7) := by
  intro text program
  let token (kind : TokenKind) (place : Nat) : Token :=
    ⟨kind, 1, text.drop place, text.drop (place + 1)⟩
  have tokenized :
      tokenize text =
        .ok [token (.punct .leftParen) 0, token (.name "a") 1, token (.punct .plus) 2,
          token (.name "b") 3, token (.punct .rightParen) 4, token (.punct .star) 5,
          token (.punct .leftParen) 6, token (.name "c") 7, token (.punct .rightParen) 8,
          token (.punct .semicolon) 9, token .endOfInput 10] :=
    rfl
  have parsed : parse text = .ok program := by
    simp only [parse, tokenized]
    rfl
  exact ⟨parsed, rfl, parse_spell parsed 7⟩

end LedSketch.Script
