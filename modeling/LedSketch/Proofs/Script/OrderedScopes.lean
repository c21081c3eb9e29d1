import LedSketch.Proofs.Script.OpenScopes

namespace LedSketch.Script

/-!
# Ordered scopes

A scope is numbered when it is opened, and opened above all that are open, under one of them.
So the numbers of the open scopes fall from the innermost one to the outermost one, and
each scope lies under one with a smaller number.
-/

/-- The number of a scope, and that of the scope it lies under. -/
def Scope.link (scope : Scope) : Nat × Option Nat := (scope.id, scope.parent)

/-- Assigning to a variable leaves each scope where it is. -/
theorem Scope.links_assign?
    {name : String}
    {value : Value}
    {stack assigned : List Scope}
    {id : Nat}
    (found : assign? name value stack id = some assigned) :
    assigned.map link = stack.map link := by
  obtain ⟨inner, scope, outer, rfl, rfl⟩ := exists_of_assign? found
  rw [List.map_append, List.map_append, List.map_cons, List.map_cons, link, link]

/-- Writes change no scope's number and none's parent. -/
theorem Scopes.Writes.links
    {scopes after : Scopes}
    (writes : Writes scopes after) :
    after.stack.map Scope.link = scopes.stack.map Scope.link := by
  induction writes with
  | none => rfl
  | @declare before name value earlier inductionHypothesis =>
      rw [← inductionHypothesis]
      unfold Scopes.declare
      split
      · next opened => rw [opened]; rfl
      · rfl
  | set earlier assigned inductionHypothesis =>
      obtain ⟨stack, inStack, rfl⟩ := Option.map_eq_some_iff.mp assigned
      exact (Scope.links_assign? inStack).trans inductionHypothesis

/-- The links of open scopes whose numbers fall, and lie below the next number. -/
structure LinksOrdered
    (next : Nat)
    (links : List (Nat × Option Nat)) :
    Prop where
  started : Scopes.globalId < next
  below : ∀ link ∈ links, link.1 < next
  falling : links.Pairwise fun inner outer => outer.1 < inner.1
  outward : ∀ link ∈ links, ∀ parent ∈ link.2, parent < link.1

/-- Open scopes in the order in which they were opened. -/
def Scopes.Ordered (scopes : Scopes) : Prop :=
  LinksOrdered scopes.next (scopes.stack.map Scope.link)

namespace Scopes.Ordered

variable {scopes after : Scopes}

/-- The outermost scope has no parent. -/
theorem ofBindings (bindings : Bindings) : (Scopes.ofBindings bindings).Ordered where
  started := Nat.zero_lt_one
  below := List.forall_mem_singleton.mpr Nat.zero_lt_one
  falling := List.pairwise_singleton _ _
  outward := List.forall_mem_singleton.mpr (by simp [Scope.link])

/-- Scopes stay in order when variables are written. -/
theorem writes
    (ordered : scopes.Ordered)
    (writes : Writes scopes after) :
    after.Ordered := by
  unfold Ordered
  rw [writes.links, writes.next]
  exact ordered

/-- The current scope has been opened before the next one. -/
theorem current_lt (ordered : scopes.Ordered) : scopes.current < scopes.next := by
  obtain ⟨stack, next⟩ := scopes
  cases stack with
  | nil => exact ordered.started
  | cons scope outer => exact ordered.below _ List.mem_cons_self

/-- A scope may be opened under one that has been opened before. -/
theorem pushUnder
    {parent : Nat}
    (ordered : scopes.Ordered)
    (opened : parent < scopes.next) :
    (scopes.pushUnder parent).Ordered where
  started := Nat.lt_succ_of_lt ordered.started
  below := List.forall_mem_cons.mpr
    ⟨Nat.lt_succ_self _, fun link member => Nat.lt_succ_of_lt (ordered.below link member)⟩
  falling := List.pairwise_cons.mpr ⟨ordered.below, ordered.falling⟩
  outward := List.forall_mem_cons.mpr
    ⟨fun _ isParent => Option.some.inj isParent ▸ opened, ordered.outward⟩

theorem push (ordered : scopes.Ordered) : scopes.push.Ordered :=
  ordered.pushUnder ordered.current_lt

/-- The innermost scope may be closed. -/
theorem pop (ordered : scopes.Ordered) : scopes.pop.Ordered := by
  have dropped : scopes.pop.stack.map Scope.link = (scopes.stack.map Scope.link).drop 1 :=
    List.map_drop
  have fewer := List.drop_sublist 1 (scopes.stack.map Scope.link)
  unfold Ordered
  rw [dropped]
  exact ⟨ordered.started, fun link member => ordered.below link (fewer.subset member),
    ordered.falling.sublist fewer, fun link member => ordered.outward link (fewer.subset member)⟩

/-- A scope that is open has a number that was given before. -/
theorem lt_of_isOpen
    {id : Nat}
    (ordered : scopes.Ordered)
    (isOpen : scopes.isOpen id = true) :
    id < scopes.next := by
  rw [isOpen_iff] at isOpen
  obtain ⟨scope, member, rfl⟩ := List.mem_map.mp isOpen
  exact ordered.below scope.link (List.mem_map_of_mem member)

end Scopes.Ordered

/-- So many scopes are open above some others. -/
def Scopes.Atop
    (floor : List Nat)
    (count : Nat)
    (scopes : Scopes) :
    Prop :=
  ∃ inner, scopes.ids = inner ++ floor ∧ inner.length = count

namespace Scopes.Atop

variable {floor : List Nat} {count own : Nat} {scopes after : Scopes}

/-- Writes change nothing below. -/
theorem writes
    (atop : scopes.Atop floor count)
    (writes : Writes scopes after) :
    after.Atop floor count := by
  unfold Atop
  rw [writes.ids]
  exact atop

/-- A scope is opened above the floor. -/
theorem pushUnder
    (atop : scopes.Atop floor count)
    (parent : Nat) :
    (scopes.pushUnder parent).Atop floor (count + 1) := by
  obtain ⟨inner, whole, sameLength⟩ := atop
  exact ⟨scopes.next :: inner, congrArg (scopes.next :: ·) whole, congrArg (· + 1) sameLength⟩

/-- A scope above the floor is closed. -/
theorem pop (atop : scopes.Atop floor (count + 1)) : scopes.pop.Atop floor count := by
  obtain ⟨inner, whole, sameLength⟩ := atop
  cases inner with
  | nil => contradiction
  | cons first inner =>
      have dropped : scopes.pop.ids = scopes.ids.drop 1 := List.map_drop
      refine ⟨inner, ?_, Nat.succ.inj sameLength⟩
      rw [dropped, whole]
      rfl

/-- The open scopes are those above the floor and the floor. -/
theorem length_eq (atop : scopes.Atop floor count) :
    scopes.stack.length = count + floor.length := by
  obtain ⟨inner, whole, rfl⟩ := atop
  rw [← List.length_append, ← whole]
  exact (List.length_map _).symm

/-- A scope that is open above a floor is not the uppermost one of the floor. -/
theorem current_ne
    (atop : scopes.Atop (own :: floor) count)
    (ordered : scopes.Ordered)
    (above : 0 < count) :
    scopes.current ≠ own := by
  obtain ⟨inner, whole, rfl⟩ := atop
  cases inner with
  | nil => contradiction
  | cons first inner =>
      have falling : scopes.ids.Pairwise fun inner outer => outer < inner := by
        have links := ordered.falling
        rw [List.pairwise_map] at links
        exact List.pairwise_map.mpr links
      rw [whole] at falling
      rw [current_eq_head, whole]
      have later := (List.pairwise_cons.mp falling).1 own
        (List.mem_append_right inner List.mem_cons_self)
      exact Nat.ne_of_gt later

end Scopes.Atop

end LedSketch.Script
