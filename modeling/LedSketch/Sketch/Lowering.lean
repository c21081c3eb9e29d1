import LedSketch.Sketch.Catalogue
import LedSketch.Sketch.Survey

namespace LedSketch.Sketch

/-!
# From sketch to script

The rules are applied one after the other.  What none of them recognises stays
as it is; the notes say where to look.
-/

/-- A script with the notes about its sketch. -/
structure Lowered where
  text : List Char
  notes : List Note

/-- What one rule did: its name, its stage, the number of replacements, the text after it. -/
structure Application where
  rule : Rule
  count : Nat
  text : List Char

/-- Text whose lines all end with a single line feed. -/
def unifyLineEnds : List Char → List Char
  | '\r' :: '\n' :: rest => '\n' :: unifyLineEnds rest
  | c :: rest => c :: unifyLineEnds rest
  | [] => []

/-- The applications of rules that replaced something, in order. -/
def applications : List Rule → List Char → List Application
  | [], _ => []
  | rule :: rest, text =>
      let (next, count) := rule.apply text
      if count = 0 then
        applications rest text
      else
        ⟨rule, count, next⟩ :: applications rest next

/-- The text after the last application. -/
def lastText
    (text : List Char)
    (applied : List Application) :
    List Char :=
  match applied.getLast? with
  | some application => application.text
  | none => text

/-- The applications of all rules to a sketch. -/
def lowerings (source : List Char) : List Application :=
  applications Catalogue.rules (unifyLineEnds source)

/-- The script of a sketch, given the applications of the rules. -/
def loweredBy
    (source : List Char)
    (applied : List Application) :
    Lowered :=
  let sketch := unifyLineEnds source
  let text := lastText sketch applied
  ⟨text, surveyNotes sketch text⟩

/-- The script of a sketch. -/
def lower (source : List Char) : Lowered :=
  loweredBy source (lowerings source)

end LedSketch.Sketch
