import LedSketch.Pattern.Search
import LedSketch.Sketch.Lexical

namespace LedSketch.Sketch

/-!
# Rules

A rule replaces the matches of a pattern.  Literals stay as they are, and a
replacement has at least as many line ends as the text it replaces, so every
other character stays on its line.
-/

open Pattern

/-- The stages of the rules, in the order they are applied. -/
inductive Stage where
  | comments
  | directives
  | constants
  | typeErasure
  | stripConstructor
  | buttonConstructor
  | timing
  | entryPoints
  | functionWrapping
  deriving Repr, DecidableEq

/-- A part of a replacement: fixed text, or the text of a group. -/
inductive Part where
  | text (text : String)
  | group (number : Nat)

/-- What a rule puts in the place of a match. -/
inductive Replacement where
  /-- Parts one after the other. -/
  | template (parts : List Part)
  /-- Text computed from the match. -/
  | computed (replace : Match → List Char)
  /-- Text computed from a match outside of all braces, unless there is none. -/
  | topLevel (replace : Match → Option (List Char))

/-- A named step of the conversion. -/
structure Rule where
  name : String
  stage : Stage
  pattern : Pattern
  replacement : Replacement

/-- A stretch of the text that a rule keeps, or one that it replaces. -/
inductive Segment where
  | kept (text : List Char)
  | replaced (old new : List Char)
  deriving Repr, DecidableEq

namespace Segment

/-- The text before the rule. -/
def before : Segment → List Char
  | .kept text => text
  | .replaced old _ => old

/-- The text after the rule. -/
def after : Segment → List Char
  | .kept text => text
  | .replaced _ new => new

/-- Whether the rule replaced the stretch. -/
def isReplaced : Segment → Bool
  | .kept _ => false
  | .replaced _ _ => true

end Segment

/-- The text of a part for a match. -/
def Part.expand
    (found : Match) :
    Part → List Char
  | .text fixed => fixed.toList
  | .group number => found.group number

/-- The text for a match at a place, if the match is to be replaced. -/
def Replacement.apply?
    (replacement : Replacement)
    (state : Lexical)
    (found : Match) :
    Option (List Char) :=
  match replacement with
  | .template parts => some (parts.flatMap (Part.expand found))
  | .computed replace => some (replace found)
  | .topLevel replace => if state.depth = 0 then replace found else none

/-- New text with line ends added until it has as many as the old text. -/
def keepLines (old new : List Char) : List Char :=
  new ++ List.replicate (old.count '\n' - new.count '\n') '\n'

namespace Rule

/-- What a rule does with a match. -/
def segment
    (rule : Rule)
    (state : Lexical)
    (found : Match) :
    Segment :=
  if state.inLiteral then
    .kept found.text
  else
    match rule.replacement.apply? state found with
    | none => .kept found.text
    | some new =>
        if new = found.text then
          .kept found.text
        else
          .replaced found.text (keepLines found.text new)

/-- What a rule does with the pieces of a text, from a lexical state on. -/
def segmentsFrom
    (rule : Rule) :
    Lexical → List Piece → List Segment
  | _, [] => []
  | state, .plain cursor :: rest =>
      .kept (cursor.rest.take 1) ::
        rule.segmentsFrom (state.readMany 1 cursor.rest) rest
  | state, .found found :: rest =>
      rule.segment state found ::
        rule.segmentsFrom
          (state.readMany (found.last.offset - found.first.offset) found.first.rest) rest

/-- What a rule does with a text. -/
def segments
    (rule : Rule)
    (text : List Char) :
    List Segment :=
  rule.segmentsFrom .initial (rule.pattern.pieces text)

/-- The text that a rule makes of a text, and the number of replacements. -/
def apply
    (rule : Rule)
    (text : List Char) :
    List Char × Nat :=
  let segments := rule.segments text
  (segments.flatMap Segment.after, segments.countP Segment.isReplaced)

end Rule

/-- Replacing never loses a line end. -/
theorem count_keepLines_ge
    (old new : List Char) :
    old.count '\n' ≤ (keepLines old new).count '\n' := by
  simp only [keepLines, List.count_append, List.count_replicate_self]
  omega

end LedSketch.Sketch
