import LedSketch.Text.CharClass

namespace LedSketch.Sketch

/-!
# Argument and parameter lists

Constructor arguments are split at the commas outside of brackets and literals;
a parameter is reduced to its name and its default.
-/

/-- How far an argument list has been read. -/
structure ArgumentScan where
  /-- Opening brackets less closing brackets. -/
  nesting : Int
  /-- The quote of the literal that is open. -/
  quote : Option Char
  escaped : Bool

namespace ArgumentScan

/-- At the start of an argument list. -/
def initial : ArgumentScan := ⟨0, none, false⟩

/-- Whether a character separates two arguments. -/
def splitsAt
    (scan : ArgumentScan)
    (c : Char) :
    Bool :=
  scan.quote.isNone && scan.nesting = 0 && c = ','

/-- Read one character. -/
def read
    (scan : ArgumentScan)
    (c : Char) :
    ArgumentScan :=
  match scan.quote with
  | some mark =>
      if scan.escaped then
        { scan with escaped := false }
      else if c = '\\' then
        { scan with escaped := true }
      else if c = mark then
        { scan with quote := none }
      else
        scan
  | none =>
      if c = '"' || c = '\'' then
        { scan with quote := some c }
      else if ['(', '[', '\x7b'].contains c then
        { scan with nesting := scan.nesting + 1 }
      else if [')', ']', '\x7d'].contains c then
        { scan with nesting := scan.nesting - 1 }
      else
        scan

end ArgumentScan

/-- The stretches between the separating commas; there is always a last one. -/
def splitFrom :
    ArgumentScan → List Char → List Char × List (List Char)
  | _, [] => ([], [])
  | scan, c :: rest =>
      let (first, others) := splitFrom (scan.read c) rest
      if scan.splitsAt c then
        ([], first :: others)
      else
        (c :: first, others)

/-- The trimmed arguments of a list; blank text has none. -/
def splitArguments (text : List Char) : List (List Char) :=
  let (first, others) := splitFrom .initial text
  if others.isEmpty && (Text.trim first).isEmpty then
    []
  else
    (first :: others).map Text.trim

/-- The stretches of a text between the occurrences of a character. -/
def splitOn
    (separator : Char) :
    List Char → List (List Char)
  | [] => [[]]
  | c :: rest =>
      match splitOn separator rest with
      | [] => [[]]
      | first :: others =>
          if c = separator then
            [] :: first :: others
          else
            (c :: first) :: others

/-- Stretches joined by a comma and a blank. -/
def joinArguments (arguments : List (List Char)) : List Char :=
  List.intercalate [',', ' '] arguments

/-- Text without the pairs of square brackets at its end, read backwards. -/
def dropBracketPairs : List Char → List Char
  | ']' :: '[' :: rest => dropBracketPairs rest
  | text => text

/-- The last name in a text, read backwards. -/
def lastName? (backwards : List Char) : Option (List Char) :=
  let name := (backwards.dropWhile fun c => !Text.isNameChar c).takeWhile Text.isNameChar
  if name.isEmpty then none else some name.reverse

/-- A parameter reduced to its name, and to its default if it has one. -/
def parameterName? (parameter : List Char) : Option (List Char) :=
  let (declared, afterDeclared) := parameter.span fun c => c ≠ '='
  let default := Text.trim (afterDeclared.drop 1)
  let backwards :=
    (dropBracketPairs (Text.trim declared).reverse).dropWhile Text.isBlank
  if backwards.isEmpty || backwards.reverse = "void".toList then
    none
  else
    (lastName? backwards).map fun name =>
      if default.isEmpty then name else name ++ " = ".toList ++ default

end LedSketch.Sketch
