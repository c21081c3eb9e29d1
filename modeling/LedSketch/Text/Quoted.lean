import LedSketch.Text.CharClass
import LedSketch.Text.EscapedRanges

namespace LedSketch.Text

/-!
# Quoted text in messages

Messages show characters and strings between quotes.  Characters that would not
be visible, and the quote itself, are written as escapes.
-/

/-- Whether a character has no visible form of its own. -/
def isEscaped (c : Char) : Bool :=
  if c.toNat < 128 then
    c.toNat < 32 || c.toNat = 127
  else
    escapedRanges.any fun ranges => inRanges ranges c.toNat

/-- The escape of a character by its number in hexadecimal. -/
def numericEscape (c : Char) : List Char :=
  ['\\', 'u', '\x7b'] ++ Nat.toDigits 16 c.toNat ++ ['\x7d']

/-- How a character is written between the given quotes. -/
def escape
    (quote c : Char) :
    List Char :=
  match c with
  | '\t' => ['\\', 't']
  | '\r' => ['\\', 'r']
  | '\n' => ['\\', 'n']
  | '\x00' => ['\\', '0']
  | '\\' => ['\\', '\\']
  | c =>
      if c = quote then
        ['\\', c]
      else if isEscaped c then
        numericEscape c
      else
        [c]

/-- A character between single quotes. -/
def quotedChar (c : Char) : String :=
  String.ofList (['\''] ++ escape '\'' c ++ ['\''])

/-- A string between double quotes. -/
def quoted (text : String) : String :=
  String.ofList (['"'] ++ text.toList.flatMap (escape '"') ++ ['"'])

end LedSketch.Text
