import LedSketch.Pattern.Search

namespace LedSketch.Sketch.Vocabulary

/-!
# Vocabulary of sketches

The patterns that the rules are composed of: blanks, names, numbers, types and
literals as sketches write them.
-/

open Pattern

/-- A blank or a tab. -/
def blank : Pattern := oneOf [' ', '\t']

/-- Blanks and tabs, perhaps none. -/
def blanks : Pattern := zeroOrMore blank

/-- At least one blank or tab. -/
def blanks1 : Pattern := oneOrMore blank

/-- White space, line ends included, perhaps none. -/
def spaces : Pattern := zeroOrMore (.char Text.isBlank)

/-- At least one character of white space. -/
def spaces1 : Pattern := oneOrMore (.char Text.isBlank)

/-- A single character. -/
def mark (wanted : Char) : Pattern := .char fun c => c = wanted

/-- A character that may be part of a word. -/
def wordChar : Pattern := .char Text.isWordChar

/-- A name: an ASCII letter or underscore, then word characters. -/
def name : Pattern := .seq (.char Text.isNameStart) (zeroOrMore wordChar)

/-- Anything up to the end of the line, perhaps nothing. -/
def restOfLine : Pattern := zeroOrMore (noneOf ['\n'])

/-- A backslash and a character of the same line. -/
def escapedChar : Pattern := .seq (mark '\\') (noneOf ['\n'])

/-- A literal in quotes that ends on its line. -/
def lineLiteral (quote : Char) : Pattern :=
  all [mark quote, zeroOrMore (.either (noneOf [quote, '\\', '\n']) escapedChar),
    mark quote]

/-- A string that may go on over line ends. -/
def label : Pattern :=
  all [mark '"', zeroOrMore (.either (noneOf ['"', '\\']) escapedChar), mark '"']

/-- Two words with white space between them. -/
def twoWords (first second : String) : Pattern :=
  all [literal first, spaces1, literal second]

/-- The integer types of a fixed width. -/
def sizedInteger : Pattern :=
  all [optional (mark 'u'), literal "int", words ["8", "16", "32", "64"], literal "_t"]

/-- The types that a declaration may have, the preferred reading first. -/
def numericTypes : List Pattern :=
  [sizedInteger, literal "size_t", twoWords "long" "long", twoWords "long" "int",
    twoWords "short" "int", literal "int", literal "long", literal "short",
    literal "byte", literal "char", literal "float", literal "double",
    literal "boolean", literal "bool", literal "word", literal "String"]

/-- The words that fix the sign of a type. -/
def signWord : Pattern := words ["unsigned", "signed"]

/-- The class of strips. -/
def stripClass : Pattern := literal "Adafruit_NeoPixel"

/-- The words that join a frequency to a color order. -/
def frequency : Pattern := .seq (literal "NEO_KHZ") (words ["800", "400"])

end LedSketch.Sketch.Vocabulary
