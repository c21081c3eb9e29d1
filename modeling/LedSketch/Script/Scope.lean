import LedSketch.Script.Value

namespace LedSketch.Script

/-!
# Scopes

Open scopes form a stack.  A scope encloses the one it was opened under, which
need not be the one just below it: the scope of a call lies under the scope its
function was declared in.  Numbers of scopes are never used twice, so a number
whose scope has been closed finds nothing.
-/

/-- The bindings of one scope; a name is bound at most once. -/
abbrev Bindings := List (String × Value)

namespace Bindings

/-- The value bound to a name. -/
def get?
    (name : String) :
    Bindings → Option Value
  | [] => none
  | (bound, value) :: rest => if bound = name then some value else get? name rest

/-- Bind a name, in place of an older binding of it. -/
def put
    (name : String)
    (value : Value) :
    Bindings → Bindings
  | [] => [(name, value)]
  | (bound, old) :: rest =>
      if bound = name then
        (bound, value) :: rest
      else
        (bound, old) :: put name value rest

/-- A name that has just been bound has its value. -/
@[simp] theorem get?_put_same
    (name : String)
    (value : Value)
    (bindings : Bindings) :
    get? name (put name value bindings) = some value := by
  induction bindings with
  | nil => simp [put, get?]
  | cons first rest inductionHypothesis =>
      rcases first with ⟨bound, old⟩
      by_cases same : bound = name
      · simp [put, get?, same]
      · simp [put, get?, same, inductionHypothesis]

/-- Binding a name leaves every other name as it is. -/
theorem get?_put_other
    {name other : String}
    (different : other ≠ name)
    (value : Value)
    (bindings : Bindings) :
    get? other (put name value bindings) = get? other bindings := by
  induction bindings with
  | nil => simp [put, get?, Ne.symm different]
  | cons first rest inductionHypothesis =>
      rcases first with ⟨bound, old⟩
      by_cases same : bound = name
      · simp [put, get?, same, Ne.symm different]
      · simp [put, get?, same, inductionHypothesis]

end Bindings

/-- One open scope. -/
structure Scope where
  id : Nat
  /-- The scope that encloses this one. -/
  parent : Option Nat
  bindings : Bindings

/-- The open scopes, innermost first, and the number of the next one. -/
structure Scopes where
  stack : List Scope
  next : Nat

namespace Scope

/-- The value of a name as seen from the scope of a number. -/
def lookup
    (name : String) :
    List Scope → Nat → Option Value
  | [], _ => none
  | scope :: outer, id =>
      if scope.id = id then
        match Bindings.get? name scope.bindings with
        | some value => some value
        | none =>
            match scope.parent with
            | some parent => lookup name outer parent
            | none => none
      else
        lookup name outer id

/-- Change the binding of a name that is seen from the scope of a number. -/
def assign?
    (name : String)
    (value : Value) :
    List Scope → Nat → Option (List Scope)
  | [], _ => none
  | scope :: outer, id =>
      if scope.id = id then
        match Bindings.get? name scope.bindings with
        | some _ =>
            some ({ scope with bindings := Bindings.put name value scope.bindings } :: outer)
        | none =>
            match scope.parent with
            | some parent => (assign? name value outer parent).map (scope :: ·)
            | none => none
      else
        (assign? name value outer id).map (scope :: ·)

/-- An assignment binds the name anew in one of the scopes, and leaves all others alone. -/
theorem exists_of_assign?
    {name : String}
    {value : Value}
    {stack assigned : List Scope}
    {id : Nat}
    (found : assign? name value stack id = some assigned) :
    ∃ inner scope outer,
      stack = inner ++ scope :: outer ∧
        assigned =
          inner ++
            { scope with bindings := Bindings.put name value scope.bindings } :: outer := by
  induction stack generalizing id assigned with
  | nil => contradiction
  | cons first others inductionHypothesis =>
      have onward {parent : Nat}
          (changed : (assign? name value others parent).map (first :: ·) = some assigned) :
          ∃ inner scope outer,
            first :: others = inner ++ scope :: outer ∧
              assigned =
                inner ++
                  { scope with bindings := Bindings.put name value scope.bindings } ::
                    outer := by
        obtain ⟨rest, inOthers, rfl⟩ := Option.map_eq_some_iff.mp changed
        obtain ⟨inner, scope, outer, rfl, rfl⟩ := inductionHypothesis inOthers
        exact ⟨first :: inner, scope, outer, rfl, rfl⟩
      unfold assign? at found
      split at found
      · split at found
        · cases found
          exact ⟨[], first, others, rfl, rfl⟩
        · split at found
          · exact onward found
          · contradiction
      · exact onward found

end Scope

namespace Scopes

/-- The number of the outermost scope. -/
def globalId : Nat := 0

/-- A single scope with the given bindings. -/
def ofBindings (bindings : Bindings) : Scopes where
  stack := [⟨globalId, none, bindings⟩]
  next := 1

/-- The number of the innermost scope. -/
def current (scopes : Scopes) : Nat :=
  match scopes.stack with
  | scope :: _ => scope.id
  | [] => globalId

/-- Whether the scope of a number is open. -/
def isOpen
    (scopes : Scopes)
    (id : Nat) :
    Bool :=
  scopes.stack.any fun scope => scope.id = id

/-- Open a scope under the scope of a number. -/
def pushUnder
    (scopes : Scopes)
    (parent : Nat) :
    Scopes where
  stack := ⟨scopes.next, some parent, []⟩ :: scopes.stack
  next := scopes.next + 1

/-- Open a scope under the innermost one. -/
def push (scopes : Scopes) : Scopes :=
  scopes.pushUnder scopes.current

/-- Close the innermost scope. -/
def pop (scopes : Scopes) : Scopes :=
  { scopes with stack := scopes.stack.drop 1 }

/-- Bind a name in the innermost scope. -/
def declare
    (scopes : Scopes)
    (name : String)
    (value : Value) :
    Scopes :=
  match scopes.stack with
  | scope :: outer =>
      { scopes with
        stack := { scope with bindings := Bindings.put name value scope.bindings } :: outer }
  | [] => scopes

/-- The value of a name as seen from the scope of a number. -/
def getFrom?
    (scopes : Scopes)
    (id : Nat)
    (name : String) :
    Option Value :=
  Scope.lookup name scopes.stack id

/-- The value of a name as seen from the innermost scope. -/
def get?
    (scopes : Scopes)
    (name : String) :
    Option Value :=
  scopes.getFrom? scopes.current name

/-- Change the binding of a name that the innermost scope sees, if there is one. -/
def set?
    (scopes : Scopes)
    (name : String)
    (value : Value) :
    Option Scopes :=
  (Scope.assign? name value scopes.stack scopes.current).map fun stack =>
    { scopes with stack }

end Scopes

end LedSketch.Script
