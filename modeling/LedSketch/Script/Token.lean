import LedSketch.Number.Decimal
import LedSketch.Text.Quoted

namespace LedSketch.Script

/-!
# Tokens

The words of the script language: numbers, strings, names, keywords and
punctuation, each with the line and the characters of the text it stands for.
-/

/-- The reserved words. -/
inductive Keyword where
  | letWord
  | varWord
  | constWord
  | functionWord
  | asyncWord
  | awaitWord
  | ifWord
  | elseWord
  | whileWord
  | doWord
  | forWord
  | returnWord
  | breakWord
  | continueWord
  | switchWord
  | caseWord
  | defaultWord
  | trueWord
  | falseWord
  | undefinedWord
  | nullWord
  deriving Repr, DecidableEq

namespace Keyword

/-- Every reserved word. -/
def all : List Keyword := [
  .letWord, .varWord, .constWord, .functionWord, .asyncWord, .awaitWord, .ifWord,
  .elseWord, .whileWord, .doWord, .forWord, .returnWord, .breakWord, .continueWord,
  .switchWord, .caseWord, .defaultWord, .trueWord, .falseWord, .undefinedWord, .nullWord]

/-- How a reserved word is written. -/
def spelling : Keyword → String
  | .letWord => "let"
  | .varWord => "var"
  | .constWord => "const"
  | .functionWord => "function"
  | .asyncWord => "async"
  | .awaitWord => "await"
  | .ifWord => "if"
  | .elseWord => "else"
  | .whileWord => "while"
  | .doWord => "do"
  | .forWord => "for"
  | .returnWord => "return"
  | .breakWord => "break"
  | .continueWord => "continue"
  | .switchWord => "switch"
  | .caseWord => "case"
  | .defaultWord => "default"
  | .trueWord => "true"
  | .falseWord => "false"
  | .undefinedWord => "undefined"
  | .nullWord => "null"

/-- The reserved word with a spelling. -/
def ofSpelling? (word : String) : Option Keyword :=
  all.find? fun keyword => keyword.spelling = word

/-- A reserved word is found again by its spelling. -/
theorem ofSpelling?_spelling (keyword : Keyword) :
    ofSpelling? keyword.spelling = some keyword := by
  cases keyword <;> decide

end Keyword

/-- The punctuation marks. -/
inductive Punct where
  | leftParen
  | rightParen
  | leftBrace
  | rightBrace
  | leftBracket
  | rightBracket
  | comma
  | semicolon
  | colon
  | question
  | dot
  | plus
  | minus
  | star
  | slash
  | percent
  | amp
  | pipe
  | caret
  | tilde
  | bang
  | assign
  | equal
  | notEqual
  | less
  | greater
  | lessEqual
  | greaterEqual
  | shiftLeft
  | shiftRight
  | andAnd
  | orOr
  | plusPlus
  | minusMinus
  | plusAssign
  | minusAssign
  | starAssign
  | slashAssign
  | percentAssign
  | ampAssign
  | pipeAssign
  | caretAssign
  | shiftLeftAssign
  | shiftRightAssign
  deriving Repr, DecidableEq

namespace Punct

/-- The name of a mark in messages. -/
def name : Punct → String
  | .leftParen => "LParen"
  | .rightParen => "RParen"
  | .leftBrace => "LBrace"
  | .rightBrace => "RBrace"
  | .leftBracket => "LBracket"
  | .rightBracket => "RBracket"
  | .comma => "Comma"
  | .semicolon => "Semicolon"
  | .colon => "Colon"
  | .question => "Question"
  | .dot => "Dot"
  | .plus => "Plus"
  | .minus => "Minus"
  | .star => "Star"
  | .slash => "Slash"
  | .percent => "Percent"
  | .amp => "Amp"
  | .pipe => "Pipe"
  | .caret => "Caret"
  | .tilde => "Tilde"
  | .bang => "Bang"
  | .assign => "Assign"
  | .equal => "Eq"
  | .notEqual => "NotEq"
  | .less => "Lt"
  | .greater => "Gt"
  | .lessEqual => "Le"
  | .greaterEqual => "Ge"
  | .shiftLeft => "Shl"
  | .shiftRight => "Shr"
  | .andAnd => "AndAnd"
  | .orOr => "OrOr"
  | .plusPlus => "PlusPlus"
  | .minusMinus => "MinusMinus"
  | .plusAssign => "PlusAssign"
  | .minusAssign => "MinusAssign"
  | .starAssign => "StarAssign"
  | .slashAssign => "SlashAssign"
  | .percentAssign => "PercentAssign"
  | .ampAssign => "AmpAssign"
  | .pipeAssign => "PipeAssign"
  | .caretAssign => "CaretAssign"
  | .shiftLeftAssign => "ShlAssign"
  | .shiftRightAssign => "ShrAssign"

/-- Every spelling with its mark; a spelling stands before those it starts with. -/
def spellings : List (String × Punct) := [
  ("===", .equal),
  ("!==", .notEqual),
  ("<<=", .shiftLeftAssign),
  (">>=", .shiftRightAssign),
  ("==", .equal),
  ("!=", .notEqual),
  ("<=", .lessEqual),
  (">=", .greaterEqual),
  ("<<", .shiftLeft),
  (">>", .shiftRight),
  ("&&", .andAnd),
  ("||", .orOr),
  ("++", .plusPlus),
  ("--", .minusMinus),
  ("+=", .plusAssign),
  ("-=", .minusAssign),
  ("*=", .starAssign),
  ("/=", .slashAssign),
  ("%=", .percentAssign),
  ("&=", .ampAssign),
  ("|=", .pipeAssign),
  ("^=", .caretAssign),
  ("(", .leftParen),
  (")", .rightParen),
  ("\x7b", .leftBrace),
  ("\x7d", .rightBrace),
  ("[", .leftBracket),
  ("]", .rightBracket),
  (",", .comma),
  (";", .semicolon),
  (":", .colon),
  ("?", .question),
  (".", .dot),
  ("+", .plus),
  ("-", .minus),
  ("*", .star),
  ("/", .slash),
  ("%", .percent),
  ("&", .amp),
  ("|", .pipe),
  ("^", .caret),
  ("~", .tilde),
  ("!", .bang),
  ("=", .assign),
  ("<", .less),
  (">", .greater)]

/-- The mark that a text starts with, and the text after it. -/
def ofText? (text : List Char) : Option (Punct × List Char) :=
  spellings.findSome? fun (spelling, punct) =>
    if spelling.toList.isPrefixOf text then
      some (punct, text.drop spelling.length)
    else
      none

end Punct

/-- What a token says. -/
inductive TokenKind where
  | int (value : Int64)
  | float (value : Float)
  | text (value : String)
  | name (value : String)
  | keyword (keyword : Keyword)
  | punct (punct : Punct)
  | endOfInput

/-- How a token is named in messages. -/
def TokenKind.description : TokenKind → String
  | .int value => "number " ++ toString value.toInt
  | .float value => "number " ++ Decimal.shortest value
  | .text value => "string " ++ Text.quoted value
  | .name value => "`" ++ value ++ "`"
  | .keyword word => "keyword " ++ word.spelling
  | .punct mark => mark.name
  | .endOfInput => "end of input"

/-- A token with its line and its place in the text. -/
structure Token where
  kind : TokenKind
  line : Nat
  /-- The text from the first character of the token on. -/
  here : List Char
  /-- The text after the last character of the token. -/
  behind : List Char

namespace Token

/-- The offset of the first character of a token in the text it was read from. -/
def start
    (text : List Char)
    (token : Token) :
    Nat :=
  text.length - token.here.length

/-- The offset after the last character of a token in the text it was read from. -/
def stop
    (text : List Char)
    (token : Token) :
    Nat :=
  text.length - token.behind.length

end Token

end LedSketch.Script
