import LedSketch.Proofs.Script.OpenScopes
import LedSketch.Proofs.Script.Renumbering

namespace LedSketch.Script

/-!
# Followed scopes

Open scopes are followed by others that have other numbers.  One of them may be parted
there: all that refers to it refers to an empty scope inside it instead.  Names mean the same
in either, and every operation leads to scopes that follow again, unless it closes the
parted scope or declares something in it.
-/

/-- A parted scope: the number that it keeps, and how many scopes there are from it on. -/
structure Parting where
  own : Nat
  floor : Nat

/--
A stack of scopes is followed by another one.  If a scope is parted, an empty scope inside
it has its new number, and the number that it keeps is given to nothing else.
-/
inductive Scope.Follows
    (numbers : Renumbering) :
    Option Parting → List Scope → List Scope → Prop where
  | nil : Follows numbers none [] []
  | above
      {parting : Option Parting}
      {outer others : List Scope}
      (scope : Scope)
      (below : Follows numbers parting outer others) :
      Follows numbers parting (scope :: outer) (scope.renumbered numbers :: others)
  | parted
      {parting : Parting}
      {outer others : List Scope}
      (scope : Scope)
      (size : outer.length + 1 = parting.floor)
      (free : ∀ id, numbers.scope id ≠ parting.own)
      (below : Follows numbers none outer others) :
      Follows numbers (some parting) (scope :: outer)
        (⟨numbers.scope scope.id, some parting.own, []⟩ ::
          ⟨parting.own, scope.parent.map numbers.scope, scope.bindings.renumbered numbers⟩ ::
            others)

/-- The innermost scope is not a parted one. -/
def Scopes.Inside
    (parting : Option Parting)
    (scopes : Scopes) :
    Prop :=
  ∀ parted ∈ parting, parted.floor < scopes.stack.length

namespace Scope.Follows

variable {numbers : Renumbering} {parting : Option Parting} {stack others : List Scope}

/-- Without a parted scope, the scopes that follow differ in their numbers only. -/
theorem eq_map (follows : Follows numbers none stack others) :
    others = stack.map (renumbered numbers) := by
  generalize isNone : none = parting at follows
  induction follows with
  | nil => rfl
  | above scope below inductionHypothesis =>
      exact congrArg (scope.renumbered numbers :: ·) (inductionHypothesis isNone)
  | parted => contradiction

/-- A parted scope is one of the open scopes. -/
theorem size
    {parting : Parting}
    (follows : Follows numbers (some parting) stack others) :
    parting.floor ≤ stack.length := by
  generalize isParting : some parting = parted at follows
  induction follows with
  | nil => cases isParting
  | above scope below inductionHypothesis =>
      exact Nat.le_succ_of_le (inductionHypothesis isParting)
  | parted scope size free below =>
      cases isParting
      exact Nat.le_of_eq size.symm

/-- Without a parting scope all scopes follow their renumbered copies. -/
theorem whole (stack : List Scope) :
    Follows numbers none stack (stack.map (renumbered numbers)) := by
  induction stack with
  | nil => exact .nil
  | cons scope outer inductionHypothesis => exact .above scope inductionHypothesis

/-- The same value is found under the renumbered scope. -/
theorem lookup
    (follows : Follows numbers parting stack others)
    (name : String)
    (id : Nat) :
    Scope.lookup name others (numbers.scope id) =
      (Scope.lookup name stack id).map (Value.renumbered numbers) := by
  induction follows generalizing id with
  | nil => rfl
  | above scope below inductionHypothesis =>
      unfold Scope.lookup
      rw [id_renumbered, parent_renumbered, bindings_renumbered, Bindings.get?_renumbered]
      by_cases here : scope.id = id
      · rw [if_pos here, if_pos (congrArg numbers.scope here)]
        cases Bindings.get? name scope.bindings with
        | some value => rfl
        | none =>
            cases scope.parent with
            | some parent => exact inductionHypothesis parent
            | none => rfl
      · rw [if_neg here, if_neg fun same => here (numbers.scope_injective same)]
        exact inductionHypothesis id
  | @parted parting outer others scope size free below inductionHypothesis =>
      unfold Scope.lookup
      by_cases here : scope.id = id
      · -- The scope inside binds nothing, so the parted one is searched next.
        rw [if_pos here, if_pos (congrArg numbers.scope here)]
        dsimp only [Bindings.get?]
        rw [Scope.lookup, if_pos rfl, Bindings.get?_renumbered]
        cases Bindings.get? name scope.bindings with
        | some value => rfl
        | none =>
            cases scope.parent with
            | some parent => exact inductionHypothesis parent
            | none => rfl
      · rw [if_neg here, if_neg fun same => here (numbers.scope_injective same), Scope.lookup,
          if_neg fun same => free id same.symm]
        exact inductionHypothesis id

/-- A scope is open when its renumbered copy is. -/
theorem isOpen
    (follows : Follows numbers parting stack others)
    (id : Nat) :
    (others.any fun scope => scope.id = numbers.scope id) =
      stack.any fun scope => scope.id = id := by
  induction follows with
  | nil => rfl
  | above scope below inductionHypothesis =>
      rw [List.any_cons, List.any_cons, inductionHypothesis, id_renumbered,
        decide_eq_decide.mpr numbers.scope_inj]
  | @parted parting outer others scope size free below inductionHypothesis =>
      have hidden : decide (parting.own = numbers.scope id) = false :=
        decide_eq_false fun same => free id same.symm
      rw [List.any_cons, List.any_cons, List.any_cons, inductionHypothesis,
        decide_eq_decide.mpr numbers.scope_inj, hidden, Bool.false_or]

/-- To bind a name in a scope with other numbers is to renumber the scope that binds it. -/
theorem put_renumbered
    (scope : Scope)
    (name : String)
    (value : Value) :
    Scope.mk (numbers.scope scope.id) (scope.parent.map numbers.scope)
        (Bindings.put name (value.renumbered numbers) (scope.bindings.renumbered numbers)) =
      renumbered numbers { scope with bindings := Bindings.put name value scope.bindings } := by
  unfold renumbered
  rw [Bindings.put_renumbered]

/-- The same assignment succeeds in both, or fails in both. -/
theorem assign?
    (follows : Follows numbers parting stack others)
    (name : String)
    (value : Value)
    (id : Nat) :
    Option.Rel (Follows numbers parting)
      (Scope.assign? name value stack id)
      (Scope.assign? name (value.renumbered numbers) others (numbers.scope id)) := by
  induction follows generalizing id with
  | nil => exact .none
  | @above parting outer others scope below inductionHypothesis =>
      -- An assignment further out leaves the first scope of either stack as it is.
      have further (id : Nat) :
          Option.Rel (Follows numbers parting)
            ((Scope.assign? name value outer id).map (scope :: ·))
            ((Scope.assign? name (value.renumbered numbers) others
              (numbers.scope id)).map (scope.renumbered numbers :: ·)) := by
        have assigned := inductionHypothesis id
        revert assigned
        generalize Scope.assign? name value outer id = result
        generalize Scope.assign? name _ others _ = otherResult
        rintro (follows | none)
        · exact .some (.above scope follows)
        · exact .none
      unfold Scope.assign?
      rw [id_renumbered, parent_renumbered, bindings_renumbered, Bindings.get?_renumbered]
      by_cases here : scope.id = id
      · rw [if_pos here, if_pos (congrArg numbers.scope here)]
        cases Bindings.get? name scope.bindings with
        | some old =>
            refine .some ?_
            rw [put_renumbered]
            exact .above _ below
        | none =>
            cases scope.parent with
            | some parent => exact further parent
            | none => exact .none
      · rw [if_neg here, if_neg fun same => here (numbers.scope_injective same)]
        exact further id
  | @parted parting outer others scope size free below inductionHypothesis =>
      have further (id : Nat) :
          Option.Rel (Follows numbers (some parting))
            ((Scope.assign? name value outer id).map (scope :: ·))
            (((Scope.assign? name (value.renumbered numbers) others (numbers.scope id)).map
              (⟨parting.own, scope.parent.map numbers.scope,
                scope.bindings.renumbered numbers⟩ :: ·)).map
                (⟨numbers.scope scope.id, some parting.own, []⟩ :: ·)) := by
        have assigned := inductionHypothesis id
        generalize Scope.assign? name _ others _ = otherResult at assigned ⊢
        cases found : Scope.assign? name value outer id with
        | none =>
            rw [found] at assigned
            cases assigned
            exact .none
        | some result =>
            rw [found] at assigned
            cases assigned with
            | some follows =>
                have sameSize : result.length + 1 = parting.floor := by
                  rw [Scope.length_assign? found, size]
                exact .some (.parted scope sameSize free follows)
      unfold Scope.assign?
      by_cases here : scope.id = id
      · rw [if_pos here, if_pos (congrArg numbers.scope here)]
        dsimp only [Bindings.get?]
        rw [Scope.assign?, if_pos rfl, Bindings.get?_renumbered]
        cases Bindings.get? name scope.bindings with
        | some old =>
            refine .some ?_
            rw [Bindings.put_renumbered]
            exact .parted { scope with bindings := Bindings.put name value scope.bindings } size
              free below
        | none =>
            cases enclosing : scope.parent with
            | some parent =>
                rw [enclosing] at further
                exact further parent
            | none => exact .none
      · rw [if_neg here, if_neg fun same => here (numbers.scope_injective same), Scope.assign?,
          if_neg fun same => free id same.symm]
        exact further id

end Scope.Follows

/-- Open scopes are followed by others, with a new number for the next one too. -/
structure Scopes.Follows
    (numbers : Renumbering)
    (parting : Option Parting)
    (scopes other : Scopes) :
    Prop where
  stack : Scope.Follows numbers parting scopes.stack other.stack
  next : other.next = numbers.scope scopes.next

namespace Scopes.Follows

variable {numbers : Renumbering} {parting : Option Parting} {scopes other : Scopes}

/-- Scopes are followed by their renumbered copies. -/
theorem whole (scopes : Scopes) : Follows numbers none scopes (scopes.renumbered numbers) :=
  ⟨.whole scopes.stack, rfl⟩

/-- Scopes that follow without a parting scope are renumbered copies. -/
theorem eq_renumbered (follows : Follows numbers none scopes other) :
    other = scopes.renumbered numbers := by
  obtain ⟨stack, next⟩ := other
  obtain ⟨sameStack, sameNext⟩ := follows
  cases sameStack.eq_map
  cases sameNext
  rfl

section Operations

variable (follows : Follows numbers parting scopes other)

include follows

/-- The current scopes have the same place. -/
theorem current : other.current = numbers.scope scopes.current := by
  obtain ⟨stack, next⟩ := scopes
  obtain ⟨otherStack, otherNext⟩ := other
  obtain ⟨sameStack, _⟩ := follows
  cases sameStack with
  | nil => exact numbers.globalId.symm
  | above | parted => rfl

theorem isOpen (id : Nat) : other.isOpen (numbers.scope id) = scopes.isOpen id :=
  follows.stack.isOpen id

/-- The same value is found from the renumbered scope on. -/
theorem getFrom?
    (id : Nat)
    (name : String) :
    other.getFrom? (numbers.scope id) name =
      (scopes.getFrom? id name).map (Value.renumbered numbers) :=
  follows.stack.lookup name id

theorem get? (name : String) :
    other.get? name = (scopes.get? name).map (Value.renumbered numbers) := by
  unfold Scopes.get?
  rw [follows.current, follows.getFrom?]

/-- The same assignment succeeds in both, or fails in both. -/
theorem set?
    (name : String)
    (value : Value) :
    Option.Rel (Follows numbers parting)
      (scopes.set? name value)
      (other.set? name (value.renumbered numbers)) := by
  have assigned := follows.stack.assign? name value scopes.current
  unfold Scopes.set?
  rw [follows.current]
  revert assigned
  generalize Scope.assign? name value scopes.stack scopes.current = result
  generalize Scope.assign? name _ other.stack _ = otherResult
  rintro (stack | none)
  · exact .some ⟨stack, follows.next⟩
  · exact .none

/-- In a parted scope nothing may be declared. -/
theorem declare
    (inside : scopes.Inside parting)
    (name : String)
    (value : Value) :
    Follows numbers parting
      (scopes.declare name value)
      (other.declare name (value.renumbered numbers)) := by
  obtain ⟨stack, next⟩ := scopes
  obtain ⟨otherStack, otherNext⟩ := other
  obtain ⟨sameStack, sameNext⟩ := follows
  cases sameStack with
  | nil => exact ⟨.nil, sameNext⟩
  | @above parting outer others scope below =>
      refine ⟨?_, sameNext⟩
      unfold Scopes.declare
      dsimp only
      rw [Scope.id_renumbered, Scope.parent_renumbered, Scope.bindings_renumbered,
        Scope.Follows.put_renumbered]
      exact .above _ below
  | @parted parting outer others scope size free below =>
      exact ((Nat.lt_irrefl _) (size ▸ inside parting rfl)).elim

/-- The scope that is opened gets a number that is ahead. -/
theorem pushUnder
    (ahead : numbers.scope (scopes.next + 1) = numbers.scope scopes.next + 1)
    (parent : Nat) :
    Follows numbers parting
      (scopes.pushUnder parent)
      (other.pushUnder (numbers.scope parent)) := by
  unfold Scopes.pushUnder
  rw [follows.next]
  exact ⟨.above ⟨scopes.next, some parent, []⟩ follows.stack, ahead.symm⟩

theorem push (ahead : numbers.scope (scopes.next + 1) = numbers.scope scopes.next + 1) :
    Follows numbers parting scopes.push other.push := by
  unfold Scopes.push
  rw [follows.current]
  exact follows.pushUnder ahead scopes.current

/-- A parted scope may not be closed. -/
theorem pop (inside : scopes.Inside parting) :
    Follows numbers parting scopes.pop other.pop := by
  obtain ⟨stack, next⟩ := scopes
  obtain ⟨otherStack, otherNext⟩ := other
  obtain ⟨sameStack, sameNext⟩ := follows
  cases sameStack with
  | nil => exact ⟨.nil, sameNext⟩
  | above scope below => exact ⟨below, sameNext⟩
  | @parted parting outer others scope size free below =>
      exact ((Nat.lt_irrefl _) (size ▸ inside parting rfl)).elim

end Operations

end Scopes.Follows

end LedSketch.Script
