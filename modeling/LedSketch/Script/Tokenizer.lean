import LedSketch.Script.ParseError

namespace LedSketch.Script

/-!
# From text to tokens

A text is read one lexeme at a time: white space, a comment, or a token.  Each
lexeme takes at least one character, so reading as many lexemes as there are
characters reaches the end.
-/

namespace Lexeme

/-- A base and its digits. -/
structure Radix where
  base : Nat
  isDigit : Char → Bool

/-- The value of a hexadecimal digit. -/
def digitValue (c : Char) : Nat :=
  if c.isDigit then
    c.toNat - '0'.toNat
  else if 'a' ≤ c then
    c.toNat - 'a'.toNat + 10
  else
    c.toNat - 'A'.toNat + 10

/-- A binary digit. -/
def isBinaryDigit (c : Char) : Bool :=
  c = '0' || c = '1'

/-- The number that digits spell in a base. -/
def valueIn
    (base : Nat)
    (digits : List Char) :
    Nat :=
  digits.foldl (fun value digit => value * base + digitValue digit) 0

/-- The base that the start of a number announces. -/
def radix? : List Char → Option Radix
  | '0' :: 'x' :: _ => some ⟨16, Text.isHexDigit⟩
  | '0' :: 'X' :: _ => some ⟨16, Text.isHexDigit⟩
  | '0' :: 'b' :: _ => some ⟨2, isBinaryDigit⟩
  | '0' :: 'B' :: _ => some ⟨2, isBinaryDigit⟩
  | _ => none

/-- The type suffix of an integer. -/
def isIntSuffix (c : Char) : Bool :=
  c = 'u' || c = 'U' || c = 'l' || c = 'L'

/-- The type suffix of a float. -/
def isFloatSuffix (c : Char) : Bool :=
  c = 'f' || c = 'F' || c = 'l' || c = 'L'

/-- Read a number whose base is announced by its first two characters. -/
def readRadix
    (radix : Radix)
    (text : List Char) :
    Except ParseCause (TokenKind × List Char) :=
  let (digits, rest) := (text.drop 2).span radix.isDigit
  let value := valueIn radix.base digits
  if digits.isEmpty || Nat.pow 2 64 ≤ value then
    .error (.invalidNumber (String.ofList (text.take 12)))
  else
    .ok (.int (UInt64.ofNat value).toInt64, rest.dropWhile isIntSuffix)

/-- A decimal literal split into its parts. -/
structure DecimalParts where
  whole : List Char
  /-- The digits after the point, if there is a point. -/
  decimals : Option (List Char)
  /-- The spelled exponent, if there is one. -/
  exponent : List Char
  rest : List Char

/-- The sign at the start of a text, if there is one. -/
def splitSign : List Char → List Char × List Char
  | '+' :: rest => (['+'], rest)
  | '-' :: rest => (['-'], rest)
  | rest => ([], rest)

/-- The exponent at the start of a text: a letter, perhaps a sign, and digits. -/
def splitExponent (text : List Char) : List Char × List Char :=
  match text with
  | letter :: rest =>
      let (sign, afterSign) := splitSign rest
      let (digits, afterDigits) := afterSign.span Char.isDigit
      if (letter = 'e' || letter = 'E') && !digits.isEmpty then
        (letter :: (sign ++ digits), afterDigits)
      else
        ([], text)
  | [] => ([], text)

/-- Split a decimal literal off a text. -/
def splitDecimal (text : List Char) : DecimalParts :=
  let (whole, rest) := text.span Char.isDigit
  match rest with
  | '.' :: afterPoint =>
      let (decimals, rest) := afterPoint.span Char.isDigit
      let (exponent, rest) := splitExponent rest
      ⟨whole, some decimals, exponent, rest⟩
  | _ =>
      let (exponent, rest) := splitExponent rest
      ⟨whole, none, exponent, rest⟩

/-- The value of a spelled exponent. -/
def exponentValue (exponent : List Char) : Int :=
  match exponent with
  | _ :: '-' :: digits => -(valueIn 10 digits : Int)
  | _ :: '+' :: digits => valueIn 10 digits
  | _ :: digits => valueIn 10 digits
  | [] => 0

/-- Read a decimal integer or float. -/
def readDecimal (text : List Char) : Except ParseCause (TokenKind × List Char) :=
  let parts := splitDecimal text
  if parts.decimals.isNone && parts.exponent.isEmpty then
    let value := valueIn 10 parts.whole
    if value < Nat.pow 2 63 then
      .ok (.int (Int64.ofNat value), parts.rest.dropWhile isIntSuffix)
    else
      .error (.invalidNumber (String.ofList parts.whole))
  else
    let decimals := parts.decimals.getD []
    let value :=
      Decimal.toFloat (valueIn 10 (parts.whole ++ decimals))
        (exponentValue parts.exponent - decimals.length)
    .ok (.float value, parts.rest.dropWhile isFloatSuffix)

/-- Read a number. -/
def readNumber (text : List Char) : Except ParseCause (TokenKind × List Char) :=
  match radix? text with
  | some radix => readRadix radix text
  | none => readDecimal text

/-- The character that a backslash and a character stand for. -/
def unescape : Char → Char
  | 'n' => '\n'
  | 't' => '\t'
  | 'r' => '\r'
  | '0' => '\x00'
  | c => c

/--
The content of a literal after its opening quote, with escapes replaced, and the
text after its closing quote.  A literal ends on its line, unless the end of the
line is escaped.
-/
def literal?
    (quote : Char) :
    List Char → Option (List Char × List Char)
  | [] => none
  | '\n' :: _ => none
  | ['\\'] => none
  | '\\' :: c :: rest =>
      (literal? quote rest).map fun (content, rest) => (unescape c :: content, rest)
  | c :: rest =>
      if c = quote then
        some ([], rest)
      else
        (literal? quote rest).map fun (content, rest) => (c :: content, rest)

/-- The body of a block comment after its opening, and the text after its end. -/
def commentBody? : List Char → Option (List Char × List Char)
  | [] => none
  | '*' :: '/' :: rest => some ([], rest)
  | c :: rest => (commentBody? rest).map fun (body, rest) => (c :: body, rest)

/-- Read a string after its opening quote. -/
def readString (text : List Char) : Except ParseCause (TokenKind × List Char) :=
  match literal? '"' text with
  | some (content, rest) => .ok (.text (String.ofList content), rest)
  | none => .error .unterminatedLiteral

/-- Read a character after its opening quote; it stands for its number. -/
def readCharacter (text : List Char) : Except ParseCause (TokenKind × List Char) :=
  match literal? '\'' text with
  | some ([c], rest) => .ok (.int (Int64.ofNat c.toNat), rest)
  | some (content, _) => .error (.invalidCharacter (String.ofList content))
  | none => .error .unterminatedLiteral

/-- Read a keyword or a name. -/
def readWord (text : List Char) : TokenKind × List Char :=
  let (word, rest) := text.span Text.isNameChar
  let word := String.ofList word
  match Keyword.ofSpelling? word with
  | some keyword => (.keyword keyword, rest)
  | none => (.name word, rest)

/-- Read a punctuation mark. -/
def readPunct
    (first : Char)
    (text : List Char) :
    Except ParseCause (TokenKind × List Char) :=
  match Punct.ofText? text with
  | some (punct, rest) => .ok (.punct punct, rest)
  | none => .error (.unexpectedCharacter first)

/-- Whether a text goes on with a digit. -/
def startsWithDigit : List Char → Bool
  | c :: _ => c.isDigit
  | [] => false

/-- Read the token at the start of a text that starts with neither a blank nor a comment. -/
def readToken
    (first : Char)
    (rest : List Char) :
    Except ParseCause (TokenKind × List Char) :=
  if first.isDigit || (first = '.' && startsWithDigit rest) then
    readNumber (first :: rest)
  else if first = '"' then
    readString rest
  else if first = '\'' then
    readCharacter rest
  else if Text.isNameStart first then
    .ok (readWord (first :: rest))
  else
    readPunct first (first :: rest)

end Lexeme

/-- One lexeme: a token or nothing, the line ends it counts, and the text after it. -/
structure Lexeme where
  kind : Option TokenKind
  lineEnds : Nat
  rest : List Char

/-- Read the lexeme at the start of a text that is not empty. -/
def Lexeme.read
    (first : Char)
    (rest : List Char) :
    Except ParseCause Lexeme :=
  if first = '\n' then
    .ok ⟨none, 1, rest⟩
  else if Text.isBlank first then
    .ok ⟨none, 0, rest⟩
  else
    match first, rest with
    | '/', '/' :: afterOpening =>
        .ok ⟨none, 0, afterOpening.dropWhile (· ≠ '\n')⟩
    | '/', '*' :: afterOpening =>
        match Lexeme.commentBody? afterOpening with
        | some (body, rest) => .ok ⟨none, body.count '\n', rest⟩
        | none => .error .unterminatedComment
    | _, _ =>
        (Lexeme.readToken first rest).map fun (kind, rest) => ⟨some kind, 0, rest⟩

/-- Read at most `count` lexemes. -/
def tokensWithin : Nat → Nat → List Char → Except ParseError (List Token)
  | _, line, [] => .ok [⟨.endOfInput, line, [], []⟩]
  | 0, line, _ :: _ => .error ⟨line, .nestedTooDeeply⟩
  | count + 1, line, first :: rest =>
      match Lexeme.read first rest with
      | .error cause => .error ⟨line, cause⟩
      | .ok lexeme =>
          match tokensWithin count (line + lexeme.lineEnds) lexeme.rest with
          | .error error => .error error
          | .ok tokens =>
              match lexeme.kind with
              | none => .ok tokens
              | some kind => .ok (⟨kind, line, first :: rest, lexeme.rest⟩ :: tokens)

/-- The tokens of a text, closed by the end of the input. -/
def tokenize (text : List Char) : Except ParseError (List Token) :=
  tokensWithin text.length 1 text

end LedSketch.Script
