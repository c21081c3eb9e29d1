import LedSketch.Text.WordRanges

namespace LedSketch.Text

/-!
# Character classes

Words, digits and blanks in the Unicode sense, beside the ASCII classes of
names and numbers.
-/

/-- Ranges of decimal digits beyond ASCII. -/
def digitRanges : List (Nat × Nat) := [
  (1632, 1641), (1776, 1785), (1984, 1993), (2406, 2415), (2534, 2543), (2662, 2671),
  (2790, 2799), (2918, 2927), (3046, 3055), (3174, 3183), (3302, 3311), (3430, 3439),
  (3558, 3567), (3664, 3673), (3792, 3801), (3872, 3881), (4160, 4169), (4240, 4249),
  (6112, 6121), (6160, 6169), (6470, 6479), (6608, 6617), (6784, 6793), (6800, 6809),
  (6992, 7001), (7088, 7097), (7232, 7241), (7248, 7257), (42528, 42537), (43216, 43225),
  (43264, 43273), (43472, 43481), (43504, 43513), (43600, 43609), (44016, 44025),
  (65296, 65305), (66720, 66729), (68912, 68921), (68928, 68937), (69734, 69743),
  (69872, 69881), (69942, 69951), (70096, 70105), (70384, 70393), (70736, 70745),
  (70864, 70873), (71248, 71257), (71360, 71369), (71376, 71395), (71472, 71481),
  (71904, 71913), (72016, 72025), (72688, 72697), (72784, 72793), (73040, 73049),
  (73120, 73129), (73552, 73561), (90416, 90425), (92768, 92777), (92864, 92873),
  (93008, 93017), (93552, 93561), (118000, 118009), (120782, 120831), (123200, 123209),
  (123632, 123641), (124144, 124153), (124401, 124410), (125264, 125273), (130032, 130041)]

/-- Ranges of white space beyond ASCII. -/
def blankRanges : List (Nat × Nat) := [
  (133, 133), (160, 160), (5760, 5760), (8192, 8202), (8232, 8233), (8239, 8239), (8287, 8287),
  (12288, 12288)]

/-- Whether one of the ranges holds the code point. -/
def inRanges
    (ranges : List (Nat × Nat))
    (codePoint : Nat) :
    Bool :=
  ranges.any fun range => range.1 ≤ codePoint && codePoint ≤ range.2

/-- A decimal digit of any script. -/
def isDigit (c : Char) : Bool :=
  if c.toNat < 128 then
    c.isDigit
  else
    inRanges digitRanges c.toNat

/-- A hexadecimal digit of ASCII. -/
def isHexDigit (c : Char) : Bool :=
  c.isDigit || ('a' ≤ c && c ≤ 'f') || ('A' ≤ c && c ≤ 'F')

/-- White space: blanks, tabs, line ends and the Unicode spaces. -/
def isBlank (c : Char) : Bool :=
  if c.toNat < 128 then
    c = ' ' || (9 ≤ c.toNat && c.toNat ≤ 13)
  else
    inRanges blankRanges c.toNat

/-- An ASCII letter, an ASCII digit or the underscore. -/
def isNameChar (c : Char) : Bool :=
  c.isAlphanum || c = '_'

/-- An ASCII letter or the underscore: what a name may start with. -/
def isNameStart (c : Char) : Bool :=
  c.isAlpha || c = '_'

/-- A character that may be part of a word in any script. -/
def isWordChar (c : Char) : Bool :=
  if c.toNat < 128 then
    isNameChar c
  else
    wordRanges.any fun ranges => inRanges ranges c.toNat

/-- Text without the white space at both of its ends. -/
def trim (text : List Char) : List Char :=
  ((text.dropWhile isBlank).reverse.dropWhile isBlank).reverse

/-- What may start a name may be part of one. -/
theorem isNameChar_of_isNameStart
    {c : Char}
    (starts : isNameStart c = true) :
    isNameChar c = true := by
  simp only [isNameStart, isNameChar, Bool.or_eq_true, Char.isAlphanum] at *
  rcases starts with letter | underscore
  · exact Or.inl (Or.inl letter)
  · exact Or.inr underscore

end LedSketch.Text
