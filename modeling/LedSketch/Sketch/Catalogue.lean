import LedSketch.Sketch.Argument
import LedSketch.Sketch.Rule
import LedSketch.Sketch.Vocabulary

namespace LedSketch.Sketch

/-!
# The rules

All rules in the order they are applied.  Constants are normalised before
constructors are recognised, and functions come last, so that they see only what
nothing else has claimed.
-/

open Pattern Vocabulary

namespace Catalogue

/-- Comments become their line ends; literals are matched so that they are skipped. -/
def stripComment (found : Match) : List Char :=
  match found.text with
  | '"' :: _ => found.text
  | '\'' :: _ => found.text
  | text => text.filter (· = '\n')

/-- Comments are removed. -/
def comments : Rule where
  name := "comments"
  stage := .comments
  pattern := any [
    .seq (literal "//") restOfLine,
    all [literal "/*", .many .lazy (.char fun _ => true), literal "*/"],
    lineLiteral '"',
    lineLiteral '\'']
  replacement := .computed stripComment

/-- A defined constant becomes a variable. -/
def defineConstants : Rule where
  name := "define-constants"
  stage := .directives
  pattern := all [
    .lineStart, blanks, mark '#', blanks, literal "define", blanks1,
    .group 1 name, blanks1,
    .group 2 (.seq (noneOf [' ', '\t', '\n']) (.many .lazy (noneOf ['\n']))),
    blanks, .lineEnd]
  replacement := .template [.text "let ", .group 1, .text " = ", .group 2, .text ";"]

/-- Other directives are removed. -/
def directives : Rule where
  name := "directives"
  stage := .directives
  pattern := all [.lineStart, blanks, mark '#', restOfLine]
  replacement := .template []

/-- A color order constant becomes its name. -/
def colorOrders : Rule where
  name := "color-orders"
  stage := .constants
  pattern := all [
    .wordEdge, literal "NEO_",
    .group 1 (words ["RGBW", "RGB", "GRB", "BRG", "GBR", "BGR"]), .wordEdge]
  replacement := .template [.text "\"", .group 1, .text "\""]

/-- A frequency added to a color order is removed. -/
def frequencySuffix : Rule where
  name := "frequency-suffix"
  stage := .constants
  pattern := all [blanks, oneOf ['+', '|'], blanks, frequency, .wordEdge]
  replacement := .template []

/-- A frequency that a color order is added to is removed. -/
def frequencyPrefix : Rule where
  name := "frequency-prefix"
  stage := .constants
  pattern := all [.wordEdge, frequency, blanks, oneOf ['+', '|'], blanks]
  replacement := .template []

/-- Static helpers of the strip class become members of one object. -/
def staticHelpers : Rule where
  name := "static-helpers"
  stage := .constants
  pattern := all [.wordEdge, stripClass, blanks, literal "::", blanks]
  replacement := .template [.text "NeoPixel."]

/-- Access through a pointer becomes plain access. -/
def arrows : Rule where
  name := "arrows"
  stage := .constants
  pattern := literal "->"
  replacement := .template [.text "."]

/-- Type suffixes of integers are removed. -/
def integerSuffixes : Rule where
  name := "integer-suffixes"
  stage := .constants
  pattern :=
    let unsignedMark := oneOf ['u', 'U']
    let longMark := oneOf ['l', 'L']
    all [
      .wordEdge,
      .group 1 (.either
        (all [mark '0', oneOf ['x', 'X'], oneOrMore (.char Text.isHexDigit)])
        (oneOrMore (.char Text.isDigit))),
      .either
        (.seq unsignedMark (optional (.seq longMark (optional longMark))))
        (all [longMark, optional longMark, optional unsignedMark]),
      .wordEdge]
  replacement := .template [.group 1]

/-- Function prototypes are removed. -/
def prototypes : Rule where
  name := "prototypes"
  stage := .typeErasure
  pattern := all [
    .lineStart, blanks,
    zeroOrMore (.seq (words ["static", "inline"]) blanks1),
    .either
      (literal "void")
      (.seq (optional (.seq signWord blanks1)) (any numericTypes)),
    blanks, optional (mark '*'), blanks, name, blanks,
    mark '(', zeroOrMore (noneOf ['(', ')']), mark ')', blanks, mark ';', blanks,
    .lineEnd]
  replacement := .template []

/-- Type words that can follow a sign word in a cast. -/
def castWords : List String := ["long", "int", "short", "char", "byte"]

/-- A declared name without its type; a cast stays as it is. -/
def eraseType (found : Match) : List Char :=
  if (castWords.map String.toList).contains (found.group 1) then
    found.text
  else
    "let ".toList ++ found.group 1

/-- Types of declarations are erased. -/
def declarators : Rule where
  name := "declarators"
  stage := .typeErasure
  pattern := all [
    .wordEdge,
    zeroOrMore (.seq (words ["const", "static", "volatile"]) spaces1),
    optional (.seq signWord spaces1),
    any (numericTypes ++ [literal "unsigned", literal "signed"]),
    .either (all [spaces, oneOf ['*', '&'], spaces]) spaces1,
    .group 1 name]
  replacement := .computed eraseType

/-- The items of an array in braces go into brackets. -/
def arrayInitialisers : Rule where
  name := "array-initialisers"
  stage := .typeErasure
  pattern := all [
    .wordEdge, literal "let", spaces1, .group 1 name, spaces,
    mark '[', zeroOrMore (noneOf [']', '\n']), mark ']', spaces, mark '=', spaces,
    mark '\x7b', .group 2 (zeroOrMore (noneOf ['\x7b', '\x7d'])), mark '\x7d']
  replacement := .template [.text "let ", .group 1, .text " = [", .group 2, .text "]"]

/-- An array without items is made by a call. -/
def arrayDeclarations : Rule where
  name := "array-declarations"
  stage := .typeErasure
  pattern := all [
    .wordEdge, literal "let", spaces1, .group 1 name, spaces,
    mark '[', .group 2 (oneOrMore (noneOf [']', '\n'])), mark ']', spaces, mark ';']
  replacement :=
    .template [.text "let ", .group 1, .text " = array(", .group 2, .text ");"]

/-- A strip made from the first three arguments; with fewer than two it stays as it is. -/
def constructStrip (found : Match) : List Char :=
  let arguments := splitArguments (found.group 2)
  let kept := arguments.take 3
  if arguments.length < 2 || kept.any List.isEmpty then
    found.text
  else
    "let ".toList ++ found.group 1 ++ " = createStrip(".toList ++ joinArguments kept ++
      ");".toList

/-- Assigned strips are made by a call. -/
def stripAssignments : Rule where
  name := "strip-assignments"
  stage := .stripConstructor
  pattern := all [
    .wordEdge, stripClass, spaces, optional (mark '*'), spaces, .group 1 name, spaces,
    mark '=', spaces, optional (.seq (literal "new") spaces1), stripClass, spaces,
    mark '(', .group 2 (zeroOrMore (noneOf [';'])), mark ')', spaces, mark ';']
  replacement := .computed constructStrip

/-- Declared strips are made by a call. -/
def stripDeclarations : Rule where
  name := "strip-declarations"
  stage := .stripConstructor
  pattern := all [
    .wordEdge, stripClass, spaces1, .group 1 name, spaces,
    mark '(', .group 2 (zeroOrMore (noneOf [';'])), mark ')', spaces, mark ';']
  replacement := .computed constructStrip

/-- A button made by a call, if both class names agree and end as button classes do. -/
def constructButton (found : Match) : List Char :=
  let className := found.group 1
  if className ≠ found.group 3 || !"Button".toList.isSuffixOf className then
    found.text
  else
    "let ".toList ++ found.group 2 ++ " = createButton(".toList ++ found.group 4 ++
      ");".toList

/-- Allocated buttons are made by a call. -/
def buttonAllocations : Rule where
  name := "button-allocations"
  stage := .buttonConstructor
  pattern := all [
    .wordEdge, .group 1 name, spaces, optional (mark '*'), spaces, .group 2 name,
    spaces, mark '=', spaces, literal "new", spaces1, .group 3 name, spaces,
    mark '(', spaces, .group 4 label, spaces, mark ')', spaces, mark ';']
  replacement := .computed constructButton

/-- Declared buttons are made by a call. -/
def buttonDeclarations : Rule where
  name := "button-declarations"
  stage := .buttonConstructor
  pattern := all [
    .wordEdge, .group 1 (.seq (optional name) (literal "Button")), spaces1,
    .group 2 name, spaces, mark '(', spaces, .group 3 label, spaces, mark ')', spaces,
    mark ';']
  replacement :=
    .template [.text "let ", .group 2, .text " = createButton(", .group 3, .text ");"]

/-- A delay is awaited, unless it is already. -/
def awaitDelay (found : Match) : List Char :=
  match found.group? 1 with
  | some _ => found.text
  | none => "await ".toList ++ found.group 2 ++ ['(']

/-- Delays are awaited. -/
def awaitDelays : Rule where
  name := "await-delays"
  stage := .timing
  pattern := all [
    optional (.group 1 (all [.wordEdge, literal "await", spaces1])), .wordEdge,
    .group 2 (words ["delayMicroseconds", "delay"]), spaces, mark '(']
  replacement := .computed awaitDelay

/-- The two entry points become functions. -/
def entryPoints : Rule where
  name := "entry-points"
  stage := .entryPoints
  pattern := all [
    .wordEdge, literal "void", spaces1, .group 1 (words ["setup", "loop"]), spaces,
    mark '(', spaces, optional (.seq (literal "void") spaces), mark ')']
  replacement := .template [.text "async function ", .group 1, .text "()"]

/-- Words that can stand before parentheses and a brace without naming a function. -/
def reservedWords : List String :=
  ["if", "for", "while", "switch", "return", "else", "do", "catch", "function",
    "async", "await", "sizeof"]

/-- The header of a function with its parameters reduced to names and defaults. -/
def functionHeader (found : Match) : Option (List Char) :=
  let functionName := found.group 2
  if (reservedWords.map String.toList).contains functionName then
    none
  else
    let parameters := (splitOn ',' (found.group 3)).filterMap parameterName?
    some (found.group 1 ++ "async function ".toList ++ functionName ++ ['('] ++
      joinArguments parameters ++ [')'] ++ found.group 4)

/-- Function definitions outside of braces become functions. -/
def functions : Rule where
  name := "functions"
  stage := .functionWrapping
  pattern := all [
    .lineStart, .group 1 blanks, optional (.seq (words ["void", "let"]) blanks1),
    optional (mark '*'), blanks, .group 2 name, blanks,
    mark '(', .group 3 (zeroOrMore (noneOf ['(', ')'])), mark ')',
    .group 4 (.seq spaces (mark '\x7b'))]
  replacement := .topLevel functionHeader

/-- Blanks at the ends of lines are removed. -/
def trailingWhitespace : Rule where
  name := "trailing-whitespace"
  stage := .functionWrapping
  pattern := .seq blanks1 .lineEnd
  replacement := .template []

/-- Every rule, in the order of application. -/
def rules : List Rule := [
  comments, defineConstants, directives, colorOrders, frequencySuffix,
  frequencyPrefix, staticHelpers, arrows, integerSuffixes, prototypes, declarators,
  arrayInitialisers, arrayDeclarations, stripAssignments, stripDeclarations,
  buttonAllocations, buttonDeclarations, awaitDelays, entryPoints, functions,
  trailingWhitespace]

/-- The rule of a name. -/
def rule? (name : String) : Option Rule :=
  rules.find? fun rule => rule.name = name

end Catalogue

end LedSketch.Sketch
