import LedSketch.Script.Operator
import LedSketch.Script.Tokenizer

namespace LedSketch.Script

/-!
# The parser

Recursive descent over the levels of expressions and the forms of statements.
Every function takes the depth it may still reach; each token needs fewer levels
than `Parser.depthPerToken`, so the depth that `parse` starts with is never used up.
-/

namespace Parser

/-- Give up at the next token because no depth is left. -/
def tooDeep : Parser α := do
  fail (← line) .nestedTooDeeply

mutual

/-- An assignment, or an expression that is none. -/
def expression : Nat → Parser Expr
  | 0 => tooDeep
  | depth + 1 => do
      let target ← conditional depth
      match assignment? (← peek) with
      | none => return target
      | some op =>
          if target.isTarget then
            skip
            let value ← expression depth
            return .assign target.line op target value
          else
            fail target.line .invalidTarget

/-- A choice between two expressions, or an expression that is none. -/
def conditional : Nat → Parser Expr
  | 0 => tooDeep
  | depth + 1 => do
      let test ← operators depth 0
      if ← takes .question then
        let whenTrue ← expression depth
        expect .colon "`:` in conditional"
        let whenFalse ← expression depth
        return .conditional test.line test whenTrue whenFalse
      else
        return test

/-- Operands joined by operators of a level or above. -/
def operators : Nat → Nat → Parser Expr
  | 0, _ => tooDeep
  | depth + 1, level =>
      if level < Operator.levels then do
        let left ← operators depth (level + 1)
        moreOperators depth level left
      else
        unary depth

/-- The operators of a level that follow a left operand. -/
def moreOperators : Nat → Nat → Expr → Parser Expr
  | 0, _, _ => tooDeep
  | depth + 1, level, left => do
      match Operator.ofToken? level (← peek) with
      | none => return left
      | some op =>
          skip
          let right ← operators depth (level + 1)
          moreOperators depth level (op.apply left right)

/-- An operand with what may stand in front of it. -/
def unary : Nat → Parser Expr
  | 0 => tooDeep
  | depth + 1 => do
      let line ← line
      match unary? (← peek) with
      | some op =>
          skip
          return .unary line op (← unary depth)
      | none =>
          match step? (← peek) with
          | some step =>
              skip
              return .update line step .before (← unary depth)
          | none =>
              if ← takesKeyword .awaitWord then
                return .await line (← unary depth)
              else
                match castAhead? (← get) with
                | some (kind, rest) =>
                    set rest
                    return .cast line kind (← unary depth)
                | none =>
                    let operand ← primary depth
                    suffixes depth operand

/-- The calls, members, indices and steps that follow an operand. -/
def suffixes : Nat → Expr → Parser Expr
  | 0, _ => tooDeep
  | depth + 1, operand => do
      let line ← line
      if ← takes .leftParen then
        let values ← expressions depth .rightParen
        suffixes depth (.call line operand values)
      else if ← takes .dot then
        let member ← name "property name"
        suffixes depth (.member line operand member)
      else if ← takes .leftBracket then
        let position ← expression depth
        expect .rightBracket "`]`"
        suffixes depth (.index line operand position)
      else
        match step? (← peek) with
        | some step =>
            skip
            suffixes depth (.update line step .after operand)
        | none => return operand

/-- Expressions between commas up to a closing mark; the last comma may be spare. -/
def expressions : Nat → Punct → Parser (List Expr)
  | 0, _ => tooDeep
  | depth + 1, close => do
      if ← takes close then
        return []
      else
        let first ← expression depth
        if ← takes .comma then
          return first :: (← expressions depth close)
        else
          expect close "`,` or closing bracket"
          return [first]

/-- A literal, a name, a parenthesised expression or an array. -/
def primary : Nat → Parser Expr
  | 0 => tooDeep
  | depth + 1 => do
      let line ← line
      let kind ← peek
      skip
      match kind with
      | .int value => return .int line value
      | .float value => return .float line value
      | .text value => return .text line value
      | .name value => return .name line value
      | .keyword .trueWord => return .bool line true
      | .keyword .falseWord => return .bool line false
      | .keyword .undefinedWord => return .undefined line
      | .keyword .nullWord => return .undefined line
      | .punct .leftParen =>
          let inner ← expression depth
          expect .rightParen "`)`"
          return inner
      | .punct .leftBracket => return .array line (← expressions depth .rightBracket)
      | other => fail line (.expected "expression" other)

end

/-- The value after an equals sign, if there is one. -/
def optionalInit (depth : Nat) : Parser (Option Expr) := do
  if ← takes .assign then
    return some (← expression depth)
  else
    return none

/-- A test in parentheses. -/
def condition (depth : Nat) : Parser Expr := do
  expect .leftParen "`(`"
  let test ← expression depth
  expect .rightParen "`)`"
  return test

/-- Variables between commas, each with its initial value. -/
def declarators : Nat → Parser (List Declarator)
  | 0 => tooDeep
  | depth + 1 => do
      let variableName ← name "variable name"
      let init ← optionalInit depth
      if ← takes .comma then
        return ⟨variableName, init⟩ :: (← declarators depth)
      else
        return [⟨variableName, init⟩]

/-- Parameters between commas up to the closing parenthesis. -/
def parameters : Nat → Parser (List Parameter)
  | 0 => tooDeep
  | depth + 1 => do
      if ← takes .rightParen then
        return []
      else
        let parameterName ← name "parameter name"
        let default ← optionalInit depth
        if ← takes .comma then
          return ⟨parameterName, default⟩ :: (← parameters depth)
        else
          expect .rightParen "`)` after parameters"
          return [⟨parameterName, default⟩]

/-- Expressions between commas. -/
def steps : Nat → Parser (List Expr)
  | 0 => tooDeep
  | depth + 1 => do
      let first ← expression depth
      if ← takes .comma then
        return first :: (← steps depth)
      else
        return [first]

/-- Whether a token opens a declaration of variables. -/
def opensDeclaration (kind : TokenKind) : Bool :=
  kind.isKeyword .letWord || kind.isKeyword .varWord || kind.isKeyword .constWord

/-- The first clause of a counting loop. -/
def forInit (depth : Nat) : Parser ForInit := do
  let kind ← peek
  if kind.isPunct .semicolon then
    return .nothing
  else if opensDeclaration kind then
    let line ← line
    skip
    return .declare line (← declarators depth)
  else
    return .expr (← expression depth)

/-- An expression that a mark may replace. -/
def unlessNext
    (mark : Punct)
    (depth : Nat) :
    Parser (Option Expr) := do
  if (← peek).isPunct mark then
    return none
  else
    return some (← expression depth)

/-- The last clause of a counting loop. -/
def forSteps (depth : Nat) : Parser (List Expr) := do
  if (← peek).isPunct .rightParen then
    return []
  else
    steps depth

/-- Whether a token ends the statements of a case. -/
def endsCase (kind : TokenKind) : Bool :=
  kind.isKeyword .caseWord || kind.isKeyword .defaultWord ||
    kind.isPunct .rightBrace || kind.isEnd

/-- Declared variables and the semicolon after them. -/
def declaration (line depth : Nat) : Parser Stmt := do
  skip
  let declared ← declarators depth
  expect .semicolon "`;` after declaration"
  return .declare line declared

/-- The head of a case: the value that selects it, or none for the default case. -/
def caseTest (depth : Nat) : Parser (Option Expr) := do
  if ← takesKeyword .caseWord then
    return some (← expression depth)
  else if ← takesKeyword .defaultWord then
    return none
  else
    unexpected "`case` or `default`"

mutual

/-- A statement. -/
def statement : Nat → Parser Stmt
  | 0 => tooDeep
  | depth + 1 => do
      let line ← line
      match ← peek with
      | .keyword .letWord => declaration line depth
      | .keyword .varWord => declaration line depth
      | .keyword .constWord => declaration line depth
      | .keyword .asyncWord => function line depth
      | .keyword .functionWord => function line depth
      | .punct .leftBrace =>
          skip
          return .block (← block depth)
      | .punct .semicolon =>
          skip
          return .empty
      | .keyword .ifWord =>
          skip
          let test ← condition depth
          let whenTrue ← statement depth
          if ← takesKeyword .elseWord then
            return .branch test whenTrue (some (← statement depth))
          else
            return .branch test whenTrue none
      | .keyword .whileWord =>
          skip
          let test ← condition depth
          return .whileLoop test (← statement depth)
      | .keyword .doWord =>
          skip
          let body ← statement depth
          if ← takesKeyword .whileWord then
            let test ← condition depth
            expect .semicolon "`;` after `do … while`"
            return .doLoop body test
          else
            unexpected "`while` after `do` body"
      | .keyword .forWord =>
          skip
          expect .leftParen "`(` after for"
          let init ← forInit depth
          expect .semicolon "`;` in for"
          let test ← unlessNext .semicolon depth
          expect .semicolon "`;` in for"
          let steps ← forSteps depth
          expect .rightParen "`)` after for clauses"
          return .forLoop init test steps (← statement depth)
      | .keyword .switchWord =>
          skip
          let discriminant ← condition depth
          expect .leftBrace "`\x7b` after switch"
          return .switch discriminant (← switchCases depth)
      | .keyword .returnWord =>
          skip
          let value ← unlessNext .semicolon depth
          expect .semicolon "`;` after return"
          return .returns line value
      | .keyword .breakWord =>
          skip
          expect .semicolon "`;` after break"
          return .breaks line
      | .keyword .continueWord =>
          skip
          expect .semicolon "`;` after continue"
          return .continues line
      | _ =>
          let value ← expression depth
          expect .semicolon "`;` after expression"
          return .expr value

/-- A function from its first reserved word to the end of its body. -/
def function : Nat → Nat → Parser Stmt
  | _, 0 => tooDeep
  | line, depth + 1 => do
      let _ ← takesKeyword .asyncWord
      if ← takesKeyword .functionWord then
        let functionName ← name "function name"
        expect .leftParen "`(` after function name"
        let parameters ← parameters depth
        expect .leftBrace "`\x7b`"
        let body ← block depth
        return .function line functionName parameters body
      else
        unexpected "`function`"

/-- Statements up to the closing brace of a block. -/
def block : Nat → Parser (List Stmt)
  | 0 => tooDeep
  | depth + 1 => do
      if ← takes .rightBrace then
        return []
      else if (← peek).isEnd then
        unexpected "`\x7d`"
      else
        let first ← statement depth
        return first :: (← block depth)

/-- Cases up to the closing brace of a `switch`. -/
def switchCases : Nat → Parser (List SwitchCase)
  | 0 => tooDeep
  | depth + 1 => do
      if ← takes .rightBrace then
        return []
      else
        let test ← caseTest depth
        expect .colon "`:` after case"
        let body ← caseBody depth
        return .mk test body :: (← switchCases depth)

/-- The statements of a case. -/
def caseBody : Nat → Parser (List Stmt)
  | 0 => tooDeep
  | depth + 1 => do
      if endsCase (← peek) then
        return []
      else
        let first ← statement depth
        return first :: (← caseBody depth)

end

/-- Statements up to the end of the input. -/
def program : Nat → Parser (List Stmt)
  | 0 => tooDeep
  | depth + 1 => do
      if (← peek).isEnd then
        return []
      else
        let first ← statement depth
        return first :: (← program depth)

/-- More levels than one token can need. -/
def depthPerToken : Nat := 32

end Parser

/-- The program that a list of tokens spells. -/
def parseTokens (tokens : List Token) : Except ParseError Program :=
  match (Parser.program (Parser.depthPerToken * (tokens.length + 1))).run tokens with
  | .ok (body, _) => .ok ⟨body⟩
  | .error error => .error error

/-- The program that a text spells. -/
def parse (text : List Char) : Except ParseError Program :=
  match tokenize text with
  | .ok tokens => parseTokens tokens
  | .error error => .error error

end LedSketch.Script
