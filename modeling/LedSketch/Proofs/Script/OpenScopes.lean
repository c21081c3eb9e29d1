import LedSketch.Proofs.Script.Counters

namespace LedSketch.Script

/-!
# Open scopes

Variables are declared and assigned in scopes that are open.  This changes neither which
scopes are open nor how they enclose each other, so the outermost scope stays the last one
as long as only scopes above it are closed.
-/

namespace Scopes

section Ids

variable (scopes : Scopes) (name : String) (value : Value)

/-- The numbers of the open scopes, innermost first. -/
def ids : List Nat := scopes.stack.map Scope.id

/-- A scope is open if its number is among those of the open scopes. -/
theorem isOpen_iff (id : Nat) : scopes.isOpen id = true ↔ id ∈ scopes.ids := by
  simp [isOpen, ids]

/-- The current scope is the innermost of the open ones. -/
theorem current_eq_head : scopes.current = scopes.ids.headD globalId := by
  unfold current ids
  cases scopes.stack <;> rfl

/-- A declaration opens no scope and closes none. -/
theorem ids_declare : (scopes.declare name value).ids = scopes.ids := by
  unfold declare ids
  split
  · next opened => rw [opened]; rfl
  · rfl

theorem next_declare : (scopes.declare name value).next = scopes.next := by
  unfold declare
  split <;> rfl

/-- A declaration stays in the current scope. -/
@[simp] theorem current_declare : (scopes.declare name value).current = scopes.current := by
  rw [current_eq_head, current_eq_head, ids_declare]

end Ids

section Set

variable {scopes assigned : Scopes} {name : String} {value : Value}

/-- An assignment opens no scope and closes none. -/
theorem ids_set? (found : scopes.set? name value = some assigned) : assigned.ids = scopes.ids := by
  obtain ⟨stack, inStack, rfl⟩ := Option.map_eq_some_iff.mp found
  exact Scope.ids_assign? inStack

theorem next_set? (found : scopes.set? name value = some assigned) :
    assigned.next = scopes.next := by
  obtain ⟨stack, inStack, rfl⟩ := Option.map_eq_some_iff.mp found
  rfl

end Set

/-- Scopes that come from others by declaring and assigning variables. -/
inductive Writes (scopes : Scopes) : Scopes → Prop where
  | none : Writes scopes scopes
  | declare
      {before : Scopes}
      (name : String)
      (value : Value)
      (earlier : Writes scopes before) :
      Writes scopes (before.declare name value)
  | set
      {before after : Scopes}
      {name : String}
      {value : Value}
      (earlier : Writes scopes before)
      (assigned : before.set? name value = some after) :
      Writes scopes after

namespace Writes

variable {scopes after : Scopes}

/-- Writes after writes are writes. -/
theorem trans
    {last : Scopes}
    (first : Writes scopes after)
    (second : Writes after last) :
    Writes scopes last := by
  induction second with
  | none => exact first
  | declare name value earlier inductionHypothesis => exact .declare name value inductionHypothesis
  | set earlier assigned inductionHypothesis => exact .set inductionHypothesis assigned

theorem ids (writes : Writes scopes after) : after.ids = scopes.ids := by
  induction writes with
  | none => rfl
  | declare name value earlier inductionHypothesis =>
      rw [ids_declare, inductionHypothesis]
  | set earlier assigned inductionHypothesis =>
      rw [ids_set? assigned, inductionHypothesis]

theorem next (writes : Writes scopes after) : after.next = scopes.next := by
  induction writes with
  | none => rfl
  | declare name value earlier inductionHypothesis =>
      rw [next_declare, inductionHypothesis]
  | set earlier assigned inductionHypothesis =>
      rw [next_set? assigned, inductionHypothesis]

end Writes

/-- So many scopes are open above the outermost one. -/
structure Nested (count : Nat) (scopes : Scopes) : Prop where
  started : globalId < scopes.next
  inner :
    ∃ inner,
      scopes.ids = inner ++ [globalId] ∧
        inner.length = count ∧
          ∀ id ∈ inner, globalId < id ∧ id < scopes.next

namespace Nested

variable {scopes after : Scopes} {count : Nat}

/-- Nothing is open above the outermost scope at first. -/
theorem ofBindings (bindings : Bindings) : (Scopes.ofBindings bindings).Nested 0 :=
  ⟨Nat.zero_lt_one, [], rfl, rfl, by simp⟩

/-- The outermost scope stays open. -/
theorem isOpen_globalId (nested : scopes.Nested count) : scopes.isOpen globalId = true := by
  obtain ⟨inner, whole, _⟩ := nested.inner
  rw [isOpen_iff, whole]
  exact List.mem_append_right inner (List.mem_singleton.mpr rfl)

theorem writes
    (nested : scopes.Nested count)
    (writes : Writes scopes after) :
    after.Nested count := by
  obtain ⟨started, inner⟩ := nested
  rw [← writes.ids] at inner
  rw [← writes.next] at started inner
  exact ⟨started, inner⟩

/-- A scope that is opened lies above the others, whatever encloses it. -/
theorem pushUnder
    (nested : scopes.Nested count)
    (parent : Nat) :
    (scopes.pushUnder parent).Nested (count + 1) := by
  obtain ⟨inner, whole, sameLength, range⟩ := nested.inner
  refine ⟨Nat.lt_succ_of_lt nested.started, scopes.next :: inner, ?_, ?_, ?_⟩
  · exact congrArg (scopes.next :: ·) whole
  · exact congrArg (· + 1) sameLength
  · refine List.forall_mem_cons.mpr ⟨⟨nested.started, Nat.lt_succ_self _⟩, ?_⟩
    intro id member
    exact ⟨(range id member).1, Nat.lt_succ_of_lt (range id member).2⟩

/-- The innermost scope is closed. -/
theorem pop (nested : scopes.Nested (count + 1)) : scopes.pop.Nested count := by
  obtain ⟨inner, whole, sameLength, range⟩ := nested.inner
  cases inner with
  | nil => contradiction
  | cons first inner =>
      refine ⟨nested.started, inner, ?_, Nat.succ.inj sameLength, ?_⟩
      · have dropped : scopes.pop.ids = scopes.ids.drop 1 := List.map_drop
        rw [dropped, whole]
        rfl
      · exact fun id member => range id (List.mem_cons_of_mem _ member)

end Nested

end Scopes

end LedSketch.Script
