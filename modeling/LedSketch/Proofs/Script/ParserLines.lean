import LedSketch.Proofs.Script.Parsed
import LedSketch.Proofs.Script.SourceLines
import LedSketch.Proofs.Script.TokenLines

namespace LedSketch.Script

/-!
# Lines of parsed programs

A program that parses is within the lines of its tokens, and one that does not parse
fails on one of them.
-/

variable {known : Nat → Prop}

theorem Operator.apply_within
    {left right : Expr}
    (op : Operator)
    (first : left.Within (.onLines known))
    (second : right.Within (.onLines known)) :
    (op.apply left right).Within (.onLines known) := by
  cases op with
  | logical op => exact .logical first.line first second
  | binary op => exact .binary first.line first second

/-- Any target may be assigned where only lines are asked for. -/
theorem Expr.mayAssign_onLines
    (op : Option BinaryOp)
    (target : Expr) :
    target.MayAssign (.onLines known) op := by
  cases target <;> exact trivial

/-- What the parser builds of expressions on known lines is on known lines. -/
theorem Expr.within_closed : Expr.Closed known (Expr.Within (.onLines known)) where
  line within := within.line
  int here := .int here
  float here := .float here
  text here := .text here
  bool here := .bool here
  undefined here := .undefined here
  name here := .name here
  array here parts := .array here parts
  unary here part := .unary here part
  apply first second := Operator.apply_within _ first second
  conditional tested := .conditional tested.line tested
  assign _ _ first := .assign first.line (Expr.mayAssign_onLines _ _) first
  update here part := .update here part
  cast here part := .cast here part
  await here part := .await here part
  call here called parts := .call here called parts
  member here part := .member here part
  index here first second := .index here first second

theorem ForInit.Holds.within
    {init : ForInit}
    (holds : init.Holds known (Expr.Within (.onLines known))) :
    init.Within (.onLines known) := by
  cases init with
  | nothing => exact trivial
  | declare line declarators =>
      exact ⟨holds.1, fun declarator member => ⟨trivial, holds.2.2 declarator member⟩⟩
  | expr value => exact holds

/-- What the parser builds of statements on known lines is on known lines. -/
theorem Stmt.within_closed :
    Stmt.Closed known (Expr.Within (.onLines known)) (Stmt.Within (.onLines known)) where
  declare here _ parts :=
    .declare here fun declarator member => ⟨trivial, parts declarator member⟩
  function here defaults :=
    .function here trivial fun parameter member => ⟨trivial, defaults parameter member⟩
  expr := .expr
  block := .block
  branch tested first second := .branch tested first fun stmt member => (second stmt member).1
  whileLoop := .whileLoop
  doLoop := .doLoop
  forLoop started := .forLoop started.within
  switch tested parts :=
    .switch tested fun case member => by
      obtain ⟨test, body⟩ := case
      exact .mk (parts _ member).1 (parts _ member).2
  returns here part := .returns here part
  breaks here := .breaks here
  continues here := .continues here
  empty := .empty

/-- What is parsed from tokens on known lines is on known lines, or fails on one. -/
theorem parseTokens_within
    {tokens : List Token}
    (supplied : Supplied known tokens) :
    match parseTokens tokens with
    | .ok program => ∀ stmt ∈ program.body, stmt.Within (.onLines known)
    | .error error => known error.line :=
  parseTokens_closed Expr.within_closed Stmt.within_closed supplied

/-- The lines of a text: one more than it has line ends. -/
def IsLineOf
    (text : List Char)
    (line : Nat) :
    Prop :=
  1 ≤ line ∧ line ≤ 1 + text.count '\n'

/-- The tokens of a text, or its lexical error, are on lines that the text spans. -/
theorem tokensWithin_supplied
    {count first last line : Nat}
    {text : List Char}
    (atLeast : first ≤ line)
    (atMost : line + text.count '\n' ≤ last) :
    match tokensWithin count line text with
    | .ok tokens => Supplied (fun line => first ≤ line ∧ line ≤ last) tokens
    | .error error => first ≤ error.line ∧ error.line ≤ last := by
  have here : first ≤ line ∧ line ≤ last := ⟨atLeast, by omega⟩
  -- A lexeme takes no fewer line ends out of the text than it adds to the line.
  fun_induction tokensWithin count line text with
  | case1 count line => exact ⟨List.forall_mem_singleton.mpr here, _, List.mem_cons_self, rfl⟩
  | case2 line c rest => exact here
  | case3 count line c rest cause failed => exact here
  | case4 count line c rest lexeme lexed error failed inductionHypothesis =>
      have taken := Lexeme.lineEnds_add_count_le lexed
      rw [failed] at inductionHypothesis
      exact inductionHypothesis (by omega) (by omega) (by omega)
  | case5 count line c rest lexeme lexed tokens onward skipped inductionHypothesis =>
      have taken := Lexeme.lineEnds_add_count_le lexed
      rw [onward] at inductionHypothesis
      exact inductionHypothesis (by omega) (by omega) (by omega)
  | case6 count line c rest lexeme lexed tokens onward kind isToken inductionHypothesis =>
      have taken := Lexeme.lineEnds_add_count_le lexed
      rw [onward] at inductionHypothesis
      have supplied := inductionHypothesis (by omega) (by omega) (by omega)
      obtain ⟨ending, member, isEnd⟩ := supplied.ends
      exact ⟨List.forall_mem_cons.mpr ⟨here, supplied.lines⟩, ending,
        List.mem_cons_of_mem _ member, isEnd⟩

/-- A text parses to a program on its lines, or fails on one of them. -/
theorem parse_within (text : List Char) :
    match parse text with
    | .ok program => ∀ stmt ∈ program.body, stmt.Within (.onLines (IsLineOf text))
    | .error error => IsLineOf text error.line := by
  have read :=
    @tokensWithin_supplied text.length 1 _ 1 text (Nat.le_refl 1) (Nat.le_refl _)
  unfold parse tokenize
  cases ran : tokensWithin text.length 1 text with
  | error error =>
      rw [ran] at read
      exact read
  | ok tokens =>
      rw [ran] at read
      exact parseTokens_within read

end LedSketch.Script
