import LedSketch.Sketch.Note
import LedSketch.Sketch.Vocabulary

namespace LedSketch.Sketch

/-!
# Survey

After the rules, each survey looks for one shape, in the sketch or in the script,
and every place where it is found becomes a note.
-/

open Pattern Vocabulary

/-- Which text a survey looks at. -/
inductive Surveyed where
  | sketch
  | script
  deriving Repr, DecidableEq

/-- A shape to look for, and what its notes are about. -/
structure Survey where
  concern : Concern
  surveyed : Surveyed
  pattern : Pattern

namespace Survey

/-- Strips that no rule recognised. -/
def leftoverStrips : Survey where
  concern := .leftoverStrip
  surveyed := .script
  pattern := all [.wordEdge, stripClass, .wordEdge, zeroOrMore (noneOf [';', '\n'])]

/-- Macros with parameters. -/
def functionMacros : Survey where
  concern := .functionMacro
  surveyed := .sketch
  pattern := all [
    .lineStart, blanks, mark '#', blanks, literal "define", blanks1,
    oneOrMore wordChar, mark '(', restOfLine]

/-- Static variables of functions. -/
def staticLocals : Survey where
  concern := .staticLocal
  surveyed := .sketch
  pattern := all [.lineStart, blanks1, literal "static", .wordEdge, restOfLine]

/-- Scope operators. -/
def scopeOperators : Survey where
  concern := .scopeOperator
  surveyed := .script
  pattern := all [oneOrMore wordChar, blanks, literal "::", blanks, oneOrMore wordChar]

/-- Constants that no rule replaced. -/
def unknownConstants : Survey where
  concern := .unknownConstant
  surveyed := .script
  pattern := all [.wordEdge, literal "NEO_", oneOrMore wordChar]

/-- Declarations of types. -/
def typeDeclarations : Survey where
  concern := .typeDeclaration
  surveyed := .script
  pattern := all [
    .wordEdge, words ["struct", "class", "template", "typedef", "enum"], .wordEdge,
    zeroOrMore (noneOf ['\n', '\x7b'])]

/-- Every survey, in the order that notes of one line are given. -/
def all : List Survey := [
  leftoverStrips, functionMacros, staticLocals, scopeOperators, unknownConstants,
  typeDeclarations]

/-- The line of an offset in a text. -/
def lineAt
    (text : List Char)
    (offset : Nat) :
    Nat :=
  (text.take offset).count '\n' + 1

/-- The notes of a survey, in the order of their places. -/
def notes
    (sketch script : List Char)
    (survey : Survey) :
    List Note :=
  let text :=
    match survey.surveyed with
    | .sketch => sketch
    | .script => script
  (survey.pattern.allMatches text).map fun found =>
    { line := lineAt text found.first.offset
      concern := survey.concern
      excerpt := String.ofList (Text.trim found.text) }

end Survey

/-- All notes, sorted by line; notes of one line keep the order of the surveys. -/
def surveyNotes (sketch script : List Char) : List Note :=
  (Survey.all.flatMap (Survey.notes sketch script)).mergeSort fun first second =>
    first.line ≤ second.line

end LedSketch.Sketch
