import LedSketch.Pattern.Preferred
import LedSketch.Text.CharClass

namespace LedSketch.Pattern

/-!
# Searching a text

A text is cut into the matches of a pattern, from left to right and without
overlap, and the characters between them.
-/

/-- A match of a pattern: where it starts and ends, and its groups. -/
structure Match where
  first : Cursor
  last : Cursor
  groups : List Group
  deriving Repr, DecidableEq

namespace Match

/-- The matched text. -/
def text (found : Match) : List Char := found.first.textTo found.last

/-- The text of a group, if the group took part in the match. -/
def group?
    (found : Match)
    (number : Nat) :
    Option (List Char) :=
  (found.groups.find? fun group => group.number = number).map Group.text

/-- The text of a group; empty if the group took no part. -/
def group
    (found : Match)
    (number : Nat) :
    List Char :=
  (found.group? number).getD []

end Match

/-- The preferred match of a pattern at a place; it takes at least one character. -/
def matchAt?
    (pattern : Pattern)
    (turns : Nat)
    (cursor : Cursor) :
    Option Match :=
  match pattern.search Text.isWordChar turns some ⟨cursor, []⟩ with
  | none => none
  | some preferred =>
      if cursor.offset < preferred.cursor.offset then
        some ⟨cursor, preferred.cursor, preferred.groups⟩
      else
        none

/-- A match, or one character between matches, which stands after its place. -/
inductive Piece where
  | plain (cursor : Cursor)
  | found (found : Match)

/-- The pieces of a text from a place on; each takes at least one of `count` characters. -/
def piecesFrom
    (pattern : Pattern)
    (turns : Nat) :
    Nat → Cursor → List Piece
  | 0, _ => []
  | count + 1, cursor =>
      match cursor.rest with
      | [] => []
      | _ :: _ =>
          match pattern.matchAt? turns cursor with
          | some found => .found found :: piecesFrom pattern turns count found.last
          | none => .plain cursor :: piecesFrom pattern turns count cursor.next

/-- The pieces of a text. -/
def pieces
    (pattern : Pattern)
    (text : List Char) :
    List Piece :=
  piecesFrom pattern text.length text.length (.start text)

/-- The matches of a pattern in a text. -/
def allMatches
    (pattern : Pattern)
    (text : List Char) :
    List Match :=
  (pattern.pieces text).filterMap fun piece =>
    match piece with
    | .plain _ => none
    | .found found => some found

end LedSketch.Pattern
