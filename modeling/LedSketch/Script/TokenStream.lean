import LedSketch.Script.ParseError
import LedSketch.Script.Syntax

namespace LedSketch.Script

/-!
# Reading tokens

A parser takes tokens from the front of a list, or fails with the line and the
cause.  The list ends with the token that marks the end of the input, and no
parser takes that one.
-/

/-- A parser: what it builds and the tokens it leaves, or a parse error. -/
abbrev Parser (α : Type) := StateT (List Token) (Except ParseError) α

/-- The kind of the next token; nothing stands behind the end of the input. -/
def kindOf : List Token → TokenKind
  | [] => .endOfInput
  | token :: _ => token.kind

/-- The line of the next token. -/
def lineOf : List Token → Nat
  | [] => 0
  | token :: _ => token.line

/-- The tokens after the next one; the end of the input is never passed. -/
def afterNext : List Token → List Token
  | [] => []
  | token :: rest =>
      match token.kind with
      | .endOfInput => token :: rest
      | _ => rest

namespace TokenKind

/-- Whether a token is a certain mark. -/
def isPunct
    (kind : TokenKind)
    (mark : Punct) :
    Bool :=
  match kind with
  | .punct found => found = mark
  | _ => false

/-- Whether a token is a certain reserved word. -/
def isKeyword
    (kind : TokenKind)
    (word : Keyword) :
    Bool :=
  match kind with
  | .keyword found => found = word
  | _ => false

/-- Whether a token is the end of the input. -/
def isEnd : TokenKind → Bool
  | .endOfInput => true
  | _ => false

end TokenKind

namespace Parser

/-- Look at the next token. -/
def peek : Parser TokenKind := do
  return kindOf (← get)

/-- The line of the next token. -/
def line : Parser Nat := do
  return lineOf (← get)

/-- Pass the next token. -/
def skip : Parser Unit :=
  modify afterNext

/-- Fail on a line. -/
def fail
    (line : Nat)
    (cause : ParseCause) :
    Parser α :=
  throw ⟨line, cause⟩

/-- Fail at the next token because something else was expected. -/
def unexpected (what : String) : Parser α := do
  fail (← line) (.expected what (← peek))

/-- Pass a mark if it is next, and say whether it was. -/
def takes (mark : Punct) : Parser Bool := do
  if (← peek).isPunct mark then
    skip
    return true
  else
    return false

/-- Pass a reserved word if it is next, and say whether it was. -/
def takesKeyword (word : Keyword) : Parser Bool := do
  if (← peek).isKeyword word then
    skip
    return true
  else
    return false

/-- Pass a mark that has to be next. -/
def expect
    (mark : Punct)
    (what : String) :
    Parser Unit := do
  if ← takes mark then
    return
  else
    unexpected what

/-- Pass a name that has to be next. -/
def name (what : String) : Parser String := do
  match ← peek with
  | .name value =>
      skip
      return value
  | _ => unexpected what

end Parser

end LedSketch.Script
