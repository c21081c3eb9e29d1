import LedSketch.Script.Token

namespace LedSketch.Script

/-!
# Parse errors

Why a text is not a script, and on which line.
-/

/-- Why a text is not a script. -/
inductive ParseCause where
  | unterminatedComment
  | unterminatedLiteral
  | invalidNumber (text : String)
  | invalidCharacter (text : String)
  | unexpectedCharacter (c : Char)
  | expected (what : String) (found : TokenKind)
  | invalidTarget
  | nestedTooDeeply

/-- The message of a parse cause. -/
def ParseCause.message : ParseCause → String
  | .unterminatedComment => "unterminated block comment"
  | .unterminatedLiteral => "unterminated literal"
  | .invalidNumber text => "invalid number " ++ text
  | .invalidCharacter text => "invalid character literal '" ++ text ++ "'"
  | .unexpectedCharacter c => "unexpected character " ++ Text.quotedChar c
  | .expected what found => "expected " ++ what ++ ", found " ++ found.description
  | .invalidTarget => "invalid assignment target"
  | .nestedTooDeeply => "nested too deeply"

/-- A parse cause with its line. -/
structure ParseError where
  line : Nat
  cause : ParseCause

/-- The message of a parse error, without its line. -/
def ParseError.message (error : ParseError) : String := error.cause.message

/-- A parse error as it is shown. -/
def ParseError.display (error : ParseError) : String :=
  "line " ++ toString error.line ++ ": " ++ error.message

end LedSketch.Script
