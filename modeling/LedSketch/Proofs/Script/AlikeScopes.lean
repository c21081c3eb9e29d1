import LedSketch.Proofs.Script.OpenScopes
import Mathlib.Data.List.Forall2

namespace LedSketch.Script

/-!
# Alike scopes

A script sees which value a name has, but not when the name was bound.  Scopes that bind
the same values to the same names, in whatever order, are alike: every operation on them
gives the same values, and scopes that are alike again.
-/

/-- Bindings of the same values to the same names. -/
def Bindings.Alike (bindings other : Bindings) : Prop :=
  ∀ name, Bindings.get? name bindings = Bindings.get? name other

namespace Bindings

/-- A name is bound to the last value that it was bound to. -/
theorem get?_put
    (name sought : String)
    (value : Value)
    (bindings : Bindings) :
    get? sought (put name value bindings) =
      if sought = name then some value else get? sought bindings := by
  split
  · next same =>
      rw [same]
      exact get?_put_same name value bindings
  · next different => exact get?_put_other different value bindings

/-- The same binding may be added to both. -/
theorem Alike.put
    {bindings other : Bindings}
    (alike : bindings.Alike other)
    (name : String)
    (value : Value) :
    Alike (Bindings.put name value bindings) (Bindings.put name value other) := by
  intro sought
  rw [get?_put, get?_put, alike sought]

/-- Bindings of different names can be made in either order. -/
theorem Alike.put_swap
    {first second : String}
    (different : first ≠ second)
    (firstValue secondValue : Value)
    (bindings : Bindings) :
    Alike
      (Bindings.put second secondValue (Bindings.put first firstValue bindings))
      (Bindings.put first firstValue (Bindings.put second secondValue bindings)) := by
  intro sought
  rw [get?_put, get?_put, get?_put, get?_put]
  by_cases isFirst : sought = first
  · rw [if_neg (fun isSecond => different (isFirst.symm.trans isSecond)), if_pos isFirst,
      if_pos isFirst]
  · rw [if_neg isFirst, if_neg isFirst]

end Bindings

/-- Scopes that differ at most in the order of their bindings. -/
structure Scope.Alike (scope other : Scope) : Prop where
  id : scope.id = other.id
  parent : scope.parent = other.parent
  bindings : scope.bindings.Alike other.bindings

namespace Scope.Alike

theorem refl (scope : Scope) : scope.Alike scope := ⟨rfl, rfl, fun _ => rfl⟩

theorem trans
    {scope middle other : Scope}
    (first : scope.Alike middle)
    (second : middle.Alike other) :
    scope.Alike other :=
  ⟨first.id.trans second.id, first.parent.trans second.parent,
    fun name => (first.bindings name).trans (second.bindings name)⟩

theorem put
    {scope other : Scope}
    (alike : scope.Alike other)
    (name : String)
    (value : Value) :
    Alike
      { scope with bindings := Bindings.put name value scope.bindings }
      { other with bindings := Bindings.put name value other.bindings } :=
  ⟨alike.id, alike.parent, alike.bindings.put name value⟩

variable {stack others : List Scope}

theorem stack_trans
    {last : List Scope}
    (first : List.Forall₂ Alike stack others)
    (second : List.Forall₂ Alike others last) :
    List.Forall₂ Alike stack last := by
  induction first generalizing last with
  | nil => exact second
  | cons sameFirst rest inductionHypothesis =>
      cases second with
      | cons alsoFirst alsoRest =>
          exact .cons (sameFirst.trans alsoFirst) (inductionHypothesis alsoRest)

/-- The same value is found in both. -/
theorem lookup
    (alike : List.Forall₂ Alike stack others)
    (name : String)
    (id : Nat) :
    Scope.lookup name stack id = Scope.lookup name others id := by
  induction alike generalizing id with
  | nil => rfl
  | @cons scope other outer outerOthers first rest inductionHypothesis =>
      unfold Scope.lookup
      rw [first.id, first.parent, first.bindings name, inductionHypothesis id]
      split
      · split
        · rfl
        · split
          · exact inductionHypothesis _
          · rfl
      · rfl

/-- The same assignment succeeds in both, or fails in both. -/
theorem assign?
    (alike : List.Forall₂ Alike stack others)
    (name : String)
    (value : Value)
    (id : Nat) :
    Option.Rel (List.Forall₂ Alike)
      (Scope.assign? name value stack id)
      (Scope.assign? name value others id) := by
  induction alike generalizing id with
  | nil => exact .none
  | @cons scope other outer outerOthers first rest inductionHypothesis =>
      -- An assignment further out leaves the first scope of either stack as it is.
      have further (id : Nat) :
          Option.Rel (List.Forall₂ Alike)
            ((Scope.assign? name value outer id).map (scope :: ·))
            ((Scope.assign? name value outerOthers id).map (other :: ·)) := by
        have assigned := inductionHypothesis id
        revert assigned
        generalize Scope.assign? name value outer id = result
        generalize Scope.assign? name value outerOthers id = otherResult
        rintro (alike | none)
        · exact .some (.cons first alike)
        · exact .none
      have updated := first.put name value
      unfold Scope.assign?
      rw [first.id, first.parent] at updated ⊢
      rw [first.bindings name]
      split
      · split
        · exact .some (.cons updated rest)
        · split
          · exact further _
          · exact .none
      · exact further id

end Scope.Alike

/-- Open scopes that differ at most in the order of their bindings. -/
structure Scopes.Alike (scopes other : Scopes) : Prop where
  stack : List.Forall₂ Scope.Alike scopes.stack other.stack
  next : scopes.next = other.next

namespace Scopes.Alike

theorem refl (scopes : Scopes) : scopes.Alike scopes :=
  ⟨List.forall₂_same.mpr fun scope _ => .refl scope, rfl⟩

section Operations

variable {scopes other : Scopes} (alike : scopes.Alike other)

include alike

/-- The same scopes are open. -/
theorem ids : scopes.ids = other.ids := by
  have sameIds {stack others : List Scope} (alike : List.Forall₂ Scope.Alike stack others) :
      stack.map Scope.id = others.map Scope.id := by
    induction alike with
    | nil => rfl
    | cons first rest inductionHypothesis =>
        rw [List.map_cons, List.map_cons, first.id, inductionHypothesis]
  exact sameIds alike.stack

theorem current : scopes.current = other.current := by
  rw [current_eq_head, current_eq_head, alike.ids]

theorem isOpen (id : Nat) : scopes.isOpen id = other.isOpen id := by
  rw [Bool.eq_iff_iff, isOpen_iff, isOpen_iff, alike.ids]

/-- From each scope on, the same value is found. -/
theorem getFrom?
    (id : Nat)
    (name : String) :
    scopes.getFrom? id name = other.getFrom? id name :=
  Scope.Alike.lookup alike.stack name id

theorem get? (name : String) : scopes.get? name = other.get? name := by
  unfold Scopes.get?
  rw [alike.current, alike.getFrom?]

/-- The same assignment succeeds in both, or fails in both. -/
theorem set?
    (name : String)
    (value : Value) :
    Option.Rel Alike (scopes.set? name value) (other.set? name value) := by
  have assigned := Scope.Alike.assign? alike.stack name value other.current
  unfold Scopes.set?
  rw [alike.current]
  revert assigned
  generalize Scope.assign? name value scopes.stack other.current = result
  generalize Scope.assign? name value other.stack other.current = otherResult
  rintro (stack | none)
  · exact .some ⟨stack, alike.next⟩
  · exact .none

/-- The same variable may be declared in both. -/
theorem declare
    (name : String)
    (value : Value) :
    (scopes.declare name value).Alike (other.declare name value) := by
  obtain ⟨stack, next⟩ := scopes
  obtain ⟨otherStack, otherNext⟩ := other
  obtain ⟨sameStack, rfl⟩ := alike
  cases sameStack with
  | nil => exact ⟨.nil, rfl⟩
  | cons first rest => exact ⟨.cons (first.put name value) rest, rfl⟩

/-- A scope may be opened in both. -/
theorem pushUnder (parent : Nat) : (scopes.pushUnder parent).Alike (other.pushUnder parent) := by
  unfold Scopes.pushUnder
  rw [alike.next]
  exact ⟨.cons (.refl _) alike.stack, rfl⟩

theorem push : scopes.push.Alike other.push := by
  unfold Scopes.push
  rw [alike.current]
  exact alike.pushUnder other.current

/-- The innermost scope may be closed in both. -/
theorem pop : scopes.pop.Alike other.pop :=
  ⟨List.forall₂_drop 1 alike.stack, alike.next⟩

theorem trans
    {last : Scopes}
    (onward : other.Alike last) :
    scopes.Alike last :=
  ⟨Scope.Alike.stack_trans alike.stack onward.stack, alike.next.trans onward.next⟩

end Operations

/-- Different names can be declared in either order. -/
theorem declare_swap
    {first second : String}
    (different : first ≠ second)
    (firstValue secondValue : Value)
    (scopes : Scopes) :
    Alike
      ((scopes.declare first firstValue).declare second secondValue)
      ((scopes.declare second secondValue).declare first firstValue) := by
  obtain ⟨_ | ⟨scope, outer⟩, next⟩ := scopes
  · exact .refl _
  · have swapped : Scope.Alike
        { scope with
          bindings :=
            Bindings.put second secondValue (Bindings.put first firstValue scope.bindings) }
        { scope with
          bindings :=
            Bindings.put first firstValue (Bindings.put second secondValue scope.bindings) } :=
      ⟨rfl, rfl, .put_swap different firstValue secondValue scope.bindings⟩
    exact ⟨.cons swapped (List.forall₂_same.mpr fun outer _ => .refl outer), rfl⟩

end Scopes.Alike

end LedSketch.Script
