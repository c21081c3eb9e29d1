import LedSketch.Proofs.Script.SourceLines
import LedSketch.Script.Scope

namespace LedSketch.Script

/-!
# Counters

A counter is a global variable that is declared once, and that the rest of the code only
adds to or subtracts from.  No inner scope binds its name, and every open scope lies under
the outermost one, so what the name is bound to there is what each of them sees.
-/

/-- The limits of code that at most adds to a counter and subtracts from it. -/
def Limits.counting (counter : String) : Limits where
  lines _ := True
  declares name := counter ≠ name
  assigns op name := counter = name → op = some .add ∨ op = some .sub

/-- The variables of a declaration, of which one is a counter with an initial value. -/
inductive Declarator.Introduce (counter : String) : List Declarator → Prop where
  | here
      {init : Expr}
      {rest : List Declarator}
      (initial : init.Within (.counting counter))
      (others : ∀ declarator ∈ rest, declarator.Within (.counting counter)) :
      Introduce counter (⟨counter, some init⟩ :: rest)
  | later
      {first : Declarator}
      {rest : List Declarator}
      (other : first.Within (.counting counter))
      (onward : Introduce counter rest) :
      Introduce counter (first :: rest)

/-- Statements of which one declares a counter, while the others only count with it. -/
inductive Stmt.Introduce (counter : String) : List Stmt → Prop where
  | here
      {line : Nat}
      {declarators : List Declarator}
      {rest : List Stmt}
      (declared : Declarator.Introduce counter declarators)
      (others : ∀ stmt ∈ rest, stmt.Within (.counting counter)) :
      Introduce counter (.declare line declarators :: rest)
  | later
      {first : Stmt}
      {rest : List Stmt}
      (other : first.Within (.counting counter))
      (onward : Introduce counter rest) :
      Introduce counter (first :: rest)

/--
Scopes of which only the outermost one may bind a name, each opened under another one of
them.
-/
inductive Rooted (name : String) (found : Option Value) : List Scope → Prop where
  | root
      {scope : Scope}
      (outermost : scope.id = Scopes.globalId)
      (bound : Bindings.get? name scope.bindings = found) :
      Rooted name found [scope]
  | under
      {scope : Scope}
      {outer : List Scope}
      {parent : Nat}
      (hidden : Bindings.get? name scope.bindings = none)
      (enclosed : scope.parent = some parent)
      (isOpen : parent ∈ outer.map Scope.id)
      (rooted : Rooted name found outer) :
      Rooted name found (scope :: outer)

namespace Scope

variable {name : String} {value : Value} {stack assigned : List Scope} {id : Nat}

/-- Assigning a variable opens no scope and closes none. -/
theorem ids_assign? (found : assign? name value stack id = some assigned) :
    assigned.map Scope.id = stack.map Scope.id := by
  obtain ⟨inner, scope, outer, rfl, rfl⟩ := exists_of_assign? found
  rw [List.map_append, List.map_append, List.map_cons, List.map_cons]

theorem length_assign? (found : assign? name value stack id = some assigned) :
    assigned.length = stack.length := by
  have sameIds := congrArg List.length (ids_assign? found)
  rwa [List.length_map, List.length_map] at sameIds

end Scope

namespace Rooted

variable {name : String} {found : Option Value} {stack : List Scope} {id : Nat}

theorem isOpen_globalId (rooted : Rooted name found stack) :
    Scopes.globalId ∈ stack.map Scope.id := by
  induction rooted with
  | root outermost => exact List.mem_singleton.mpr outermost.symm
  | under hidden enclosed isOpen rooted inductionHypothesis =>
      exact List.mem_cons_of_mem _ inductionHypothesis

/-- The name means the same seen from every open scope. -/
theorem lookup
    (rooted : Rooted name found stack)
    (isOpen : id ∈ stack.map Scope.id) :
    Scope.lookup name stack id = found := by
  induction rooted generalizing id with
  | @root scope outermost bound =>
      have same : scope.id = id := (List.mem_singleton.mp isOpen).symm
      unfold Scope.lookup
      rw [if_pos same, bound]
      cases found with
      | some value => rfl
      | none => cases scope.parent <;> rfl
  | @under scope outer parent hidden enclosed isParent rooted inductionHypothesis =>
      unfold Scope.lookup
      split
      · rw [hidden, enclosed]
        exact inductionHypothesis isParent
      · next other =>
          obtain here | isOuter := List.mem_cons.mp isOpen
          · exact (other here.symm).elim
          · exact inductionHypothesis isOuter

/-- The binding of the name can be changed from every open scope. -/
theorem assign
    {current : Value}
    (rooted : Rooted name (some current) stack)
    (isOpen : id ∈ stack.map Scope.id)
    (value : Value) :
    ∃ assigned,
      Scope.assign? name value stack id = some assigned ∧
        Rooted name (some value) assigned := by
  induction rooted generalizing id with
  | @root scope outermost bound =>
      have same : scope.id = id := (List.mem_singleton.mp isOpen).symm
      refine ⟨[{ scope with bindings := Bindings.put name value scope.bindings }], ?_,
        .root outermost (Bindings.get?_put_same name value scope.bindings)⟩
      unfold Scope.assign?
      rw [if_pos same, bound]
  | @under scope outer parent hidden enclosed isParent rooted inductionHypothesis =>
      have onward {enclosing : Nat} (isOuter : enclosing ∈ outer.map Scope.id) :
          ∃ assigned,
            (Scope.assign? name value outer enclosing).map (scope :: ·) = some assigned ∧
              Rooted name (some value) assigned := by
        obtain ⟨assigned, changed, rooted⟩ := inductionHypothesis isOuter
        have ids := Scope.ids_assign? changed
        refine ⟨scope :: assigned, by rw [changed]; rfl, .under hidden enclosed ?_ rooted⟩
        rw [ids]
        exact isParent
      unfold Scope.assign?
      split
      · rw [hidden, enclosed]
        exact onward isParent
      · next other =>
          obtain here | isOuter := List.mem_cons.mp isOpen
          · exact (other here.symm).elim
          · exact onward isOuter

/-- A scope may bind other names anew. -/
theorem rebind
    {outer : List Scope}
    {scope : Scope}
    {bindings : Bindings}
    (inner : List Scope)
    (rooted : Rooted name found (inner ++ scope :: outer))
    (unseen : Bindings.get? name bindings = Bindings.get? name scope.bindings) :
    Rooted name found (inner ++ { scope with bindings } :: outer) := by
  generalize whole : inner ++ scope :: outer = stack at rooted
  induction rooted generalizing inner with
  | root outermost bound =>
      obtain ⟨rfl, same⟩ | ⟨_, _, empty⟩ := List.append_eq_cons_iff.mp whole
      · cases same
        exact .root outermost (unseen.trans bound)
      · exact (List.append_ne_nil_of_right_ne_nil _ (List.cons_ne_nil _ _) empty.symm).elim
  | under hidden enclosed isOpen rooted inductionHypothesis =>
      obtain ⟨rfl, same⟩ | ⟨rest, rfl, rfl⟩ := List.append_eq_cons_iff.mp whole
      · cases same
        exact .under (unseen.trans hidden) enclosed isOpen rooted
      · have sameIds :
            (rest ++ { scope with bindings } :: outer).map Scope.id =
              (rest ++ scope :: outer).map Scope.id := by
          rw [List.map_append, List.map_append, List.map_cons, List.map_cons]
        exact .under hidden enclosed (sameIds ▸ isOpen) (inductionHypothesis rest rfl)

/-- Another variable can be assigned without any effect on the name. -/
theorem assign_other
    {other : String}
    {value : Value}
    {assigned : List Scope}
    (rooted : Rooted name found stack)
    (different : name ≠ other)
    (changed : Scope.assign? other value stack id = some assigned) :
    Rooted name found assigned := by
  obtain ⟨inner, scope, outer, rfl, rfl⟩ := Scope.exists_of_assign? changed
  exact rooted.rebind inner (Bindings.get?_put_other different value scope.bindings)

/-- The scopes that are left when an inner one is closed. -/
theorem pop
    {scope : Scope}
    {outer : List Scope}
    (rooted : Rooted name found (scope :: outer))
    (inner : outer ≠ []) :
    Rooted name found outer := by
  cases rooted with
  | root => exact (inner rfl).elim
  | under hidden enclosed isOpen rooted => exact rooted

end Rooted

namespace Scopes

variable {name : String} {found : Option Value} {scopes : Scopes}

/-- Only the outermost scope may bind a name, and every open scope lies under it. -/
def Rooted
    (name : String)
    (found : Option Value)
    (scopes : Scopes) :
    Prop :=
  Script.Rooted name found scopes.stack

namespace Rooted

theorem ofBindings
    (name : String)
    (bindings : Bindings) :
    (ofBindings bindings).Rooted name (Bindings.get? name bindings) :=
  .root rfl rfl

theorem current_open (rooted : scopes.Rooted name found) :
    scopes.current ∈ scopes.stack.map Scope.id := by
  unfold current
  have rooted : Script.Rooted name found scopes.stack := rooted
  cases opened : scopes.stack with
  | nil =>
      rw [opened] at rooted
      cases rooted
  | cons scope outer => exact List.mem_cons_self

/-- The innermost scope sees what the outermost one binds. -/
theorem get? (rooted : scopes.Rooted name found) : scopes.get? name = found :=
  Script.Rooted.lookup rooted rooted.current_open

theorem getFrom?_globalId (rooted : scopes.Rooted name found) :
    scopes.getFrom? globalId name = found :=
  Script.Rooted.lookup rooted (Script.Rooted.isOpen_globalId rooted)

theorem set?
    {current : Value}
    (rooted : scopes.Rooted name (some current))
    (value : Value) :
    ∃ changed,
      scopes.set? name value = some changed ∧
        changed.Rooted name (some value) ∧
          changed.stack.length = scopes.stack.length := by
  obtain ⟨assigned, stored, after⟩ := Script.Rooted.assign rooted rooted.current_open value
  refine ⟨{ scopes with stack := assigned }, ?_, after, Scope.length_assign? stored⟩
  unfold Scopes.set?
  rw [stored]
  rfl

theorem set?_other
    {other : String}
    {value : Value}
    {changed : Scopes}
    (rooted : scopes.Rooted name found)
    (different : name ≠ other)
    (stored : scopes.set? other value = some changed) :
    changed.Rooted name found ∧ changed.stack.length = scopes.stack.length := by
  obtain ⟨assigned, inStack, rfl⟩ := Option.map_eq_some_iff.mp stored
  exact ⟨Script.Rooted.assign_other rooted different inStack, Scope.length_assign? inStack⟩

theorem declare_other
    {other : String}
    (rooted : scopes.Rooted name found)
    (different : name ≠ other)
    (value : Value) :
    (scopes.declare other value).Rooted name found ∧
      (scopes.declare other value).stack.length = scopes.stack.length := by
  have rooted : Script.Rooted name found scopes.stack := rooted
  unfold Scopes.declare Scopes.Rooted
  cases opened : scopes.stack with
  | nil =>
      rw [opened] at rooted
      cases rooted
  | cons scope outer =>
      rw [opened] at rooted
      exact ⟨.rebind [] rooted (Bindings.get?_put_other different value _), rfl⟩

/-- The outermost scope binds what is declared while no other one is open. -/
theorem declare
    (rooted : scopes.Rooted name found)
    (alone : scopes.stack.length = 1)
    (value : Value) :
    (scopes.declare name value).Rooted name (some value) ∧
      (scopes.declare name value).stack.length = 1 := by
  obtain ⟨scope, only⟩ := List.length_eq_one_iff.mp alone
  have rooted : Script.Rooted name found scopes.stack := rooted
  unfold Scopes.declare Scopes.Rooted
  rw [only] at rooted
  rw [only]
  cases rooted with
  | root outermost bound =>
      exact ⟨.root outermost (Bindings.get?_put_same name value scope.bindings), rfl⟩
  | under hidden enclosed isOpen => contradiction

theorem pushUnder
    {parent : Nat}
    (rooted : scopes.Rooted name found)
    (isOpen : parent ∈ scopes.stack.map Scope.id) :
    (scopes.pushUnder parent).Rooted name found :=
  .under rfl rfl isOpen rooted

theorem pop
    (rooted : scopes.Rooted name found)
    (inner : 1 < scopes.stack.length) :
    scopes.pop.Rooted name found ∧ scopes.pop.stack.length + 1 = scopes.stack.length := by
  have rooted : Script.Rooted name found scopes.stack := rooted
  unfold Scopes.pop Scopes.Rooted
  cases opened : scopes.stack with
  | nil =>
      rw [opened] at inner
      contradiction
  | cons scope outer =>
      rw [opened] at rooted inner
      refine ⟨rooted.pop ?_, rfl⟩
      rintro rfl
      contradiction

end Rooted

end Scopes

end LedSketch.Script
