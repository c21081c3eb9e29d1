namespace LedSketch

/-!
# Patterns

A pattern describes pieces of text.  Its meaning is the list of all its runs
from a place in the text, in order of preference: the first alternative before
the second, and one repetition more (or less, if the pattern is lazy) before the
others.  The preferred progress is the head of the list.
-/

/-- A place in a text: the character before it, the text after it, and its offset. -/
structure Cursor where
  before : Option Char
  rest : List Char
  offset : Nat
  deriving Repr, DecidableEq

namespace Cursor

/-- The place at the start of a text. -/
def start (text : List Char) : Cursor := ⟨none, text, 0⟩

/-- The place after the next character; the end of the text stays where it is. -/
def next (cursor : Cursor) : Cursor :=
  match cursor.rest with
  | [] => cursor
  | c :: rest => ⟨some c, rest, cursor.offset + 1⟩

/-- The text from a place up to a later one. -/
def textTo (first last : Cursor) : List Char :=
  first.rest.take (last.offset - first.offset)

end Cursor

/-- A stretch of a text that a pattern remembers under a number. -/
structure Group where
  number : Nat
  first : Cursor
  last : Cursor
  deriving Repr, DecidableEq

/-- The remembered text. -/
def Group.text (group : Group) : List Char := group.first.textTo group.last

/-- How many repetitions a pattern prefers. -/
inductive Appetite where
  /-- As many as possible. -/
  | greedy
  /-- As few as possible. -/
  | lazy
  deriving Repr, DecidableEq

/-- Patterns over the characters of a text. -/
inductive Pattern where
  /-- Nothing. -/
  | nothing
  /-- One character of a class. -/
  | char (accepts : Char → Bool)
  | seq (first second : Pattern)
  | either (first second : Pattern)
  /-- Any number of repetitions. -/
  | many (appetite : Appetite) (body : Pattern)
  /-- The text of the body is remembered under a number. -/
  | group (number : Nat) (body : Pattern)
  /-- A place between a word character and something else. -/
  | wordEdge
  /-- The start of the text or of a line. -/
  | lineStart
  /-- The end of the text or of a line. -/
  | lineEnd

namespace Pattern

/-- How far a pattern has come, and the groups it remembers, the latest first. -/
structure Progress where
  cursor : Cursor
  groups : List Group
  deriving Repr, DecidableEq

/-- Whether an optional character is part of a word. -/
def isWordAt (isWord : Char → Bool) : Option Char → Bool
  | some c => isWord c
  | none => false

/-- Go on past a character. -/
def pass (progress : Progress) : Progress :=
  { progress with cursor := progress.cursor.next }

/-- Whether a place lies between a word character and something else. -/
def atWordEdge
    (isWord : Char → Bool)
    (cursor : Cursor) :
    Bool :=
  isWordAt isWord cursor.before != isWordAt isWord cursor.rest.head?

/-- Whether a place is the start of the text or of a line. -/
def atLineStart (cursor : Cursor) : Bool :=
  cursor.before = none || cursor.before = some '\n'

/-- Whether a place is the end of the text or of a line. -/
def atLineEnd (cursor : Cursor) : Bool :=
  cursor.rest.head? = none || cursor.rest.head? = some '\n'

/-- Remember the text between two places under a number. -/
def remember
    (number : Nat)
    (first after : Progress) :
    Progress :=
  { after with groups := ⟨number, first.cursor, after.cursor⟩ :: after.groups }

/-- Go on from a place only where a condition holds. -/
def check
    (holds : Bool)
    (progress : Progress) :
    List Progress :=
  if holds then [progress] else []

/--
All runs of a repetition.  A turn that consumes nothing is left out, so that no
more turns are possible than there are characters, which is what `turns` bounds.
-/
def turnsOf
    (appetite : Appetite)
    (body : Progress → List Progress) :
    Nat → Progress → List Progress
  | 0, progress => [progress]
  | turns + 1, progress =>
      let onward :=
        ((body progress).filter fun after =>
          progress.cursor.offset < after.cursor.offset).flatMap
            (turnsOf appetite body turns)
      match appetite with
      | .greedy => onward ++ [progress]
      | .lazy => progress :: onward

/-- All runs of a pattern in order of preference; `turns` bounds its repetitions. -/
def runs
    (isWord : Char → Bool)
    (turns : Nat) :
    Pattern → Progress → List Progress
  | .nothing, progress => [progress]
  | .char accepts, progress =>
      match progress.cursor.rest with
      | [] => []
      | c :: _ => check (accepts c) (pass progress)
  | .seq first second, progress =>
      (runs isWord turns first progress).flatMap (runs isWord turns second)
  | .either first second, progress =>
      runs isWord turns first progress ++ runs isWord turns second progress
  | .many appetite body, progress => turnsOf appetite (runs isWord turns body) turns progress
  | .group number body, progress =>
      (runs isWord turns body progress).map (remember number progress)
  | .wordEdge, progress => check (atWordEdge isWord progress.cursor) progress
  | .lineStart, progress => check (atLineStart progress.cursor) progress
  | .lineEnd, progress => check (atLineEnd progress.cursor) progress

/-- Patterns one after the other. -/
def all : List Pattern → Pattern
  | [] => .nothing
  | [pattern] => pattern
  | pattern :: rest => .seq pattern (all rest)

/-- The first pattern that fits. -/
def any : List Pattern → Pattern
  | [] => .nothing
  | [pattern] => pattern
  | pattern :: rest => .either pattern (any rest)

/-- A pattern or nothing. -/
def optional (pattern : Pattern) : Pattern := .either pattern .nothing

/-- As many repetitions as possible. -/
def zeroOrMore (pattern : Pattern) : Pattern := .many .greedy pattern

/-- As many repetitions as possible, at least one. -/
def oneOrMore (pattern : Pattern) : Pattern := .seq pattern (.many .greedy pattern)

/-- One character of a list. -/
def oneOf (accepted : List Char) : Pattern := .char fun c => accepted.contains c

/-- One character that is not in a list. -/
def noneOf (refused : List Char) : Pattern := .char fun c => !refused.contains c

/-- A fixed text. -/
def literal (text : String) : Pattern :=
  all (text.toList.map fun wanted => .char fun c => c = wanted)

/-- The first of several fixed texts that fits. -/
def words (texts : List String) : Pattern := any (texts.map literal)

end Pattern

end LedSketch
