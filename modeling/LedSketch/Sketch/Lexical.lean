namespace LedSketch.Sketch

/-!
# Literals, comments and braces

While a rule walks over a text it has to know whether it is inside a literal, and
how deeply braces nest.  The state changes with every character; the two
characters that open or close a comment count as read with the first of them.
-/

/-- What a place of a text is inside of. -/
inductive Mode where
  | code
  /-- A string or a character, opened by this quote. -/
  | quote (mark : Char)
  | lineComment
  | blockComment
  deriving Repr, DecidableEq

/-- What is known about a place of a text. -/
structure Lexical where
  mode : Mode
  /-- Whether the next character of a literal is escaped. -/
  escaped : Bool
  /-- Whether the next character belongs to a comment mark that has been read. -/
  passed : Bool
  /-- Opening braces less closing braces. -/
  depth : Int
  deriving Repr, DecidableEq

namespace Lexical

/-- What is known at the start of a text. -/
def initial : Lexical := ⟨.code, false, false, 0⟩

/-- Read a character outside of literals and comments. -/
def readCode
    (state : Lexical)
    (c : Char)
    (following : Option Char) :
    Lexical :=
  if c = '/' && following = some '/' then
    { state with mode := .lineComment, passed := true }
  else if c = '/' && following = some '*' then
    { state with mode := .blockComment, passed := true }
  else if c = '"' || c = '\'' then
    { state with mode := .quote c }
  else if c = '\x7b' then
    { state with depth := state.depth + 1 }
  else if c = '\x7d' then
    { state with depth := state.depth - 1 }
  else
    state

/-- Read a character of a literal; a line end closes it too. -/
def readQuoted
    (state : Lexical)
    (mark c : Char) :
    Lexical :=
  if state.escaped then
    { state with escaped := false }
  else if c = '\\' then
    { state with escaped := true }
  else if c = mark || c = '\n' then
    { state with mode := .code }
  else
    state

/-- Read one character, knowing the one that follows it. -/
def read
    (state : Lexical)
    (c : Char)
    (following : Option Char) :
    Lexical :=
  if state.passed then
    { state with passed := false }
  else
    match state.mode with
    | .code => state.readCode c following
    | .quote mark => state.readQuoted mark c
    | .lineComment => if c = '\n' then { state with mode := .code } else state
    | .blockComment =>
        if c = '*' && following = some '/' then
          { state with mode := .code, passed := true }
        else
          state

/-- Read the first `count` characters of a text. -/
def readMany
    (state : Lexical) :
    Nat → List Char → Lexical
  | 0, _ => state
  | _, [] => state
  | count + 1, c :: rest => (state.read c rest.head?).readMany count rest

/-- Whether a place lies inside a literal. -/
def inLiteral (state : Lexical) : Bool :=
  match state.mode with
  | .quote _ => true
  | _ => false

/-- What is known at an offset of a text. -/
def atOffset
    (text : List Char)
    (offset : Nat) :
    Lexical :=
  initial.readMany offset text

end Lexical

end LedSketch.Sketch
