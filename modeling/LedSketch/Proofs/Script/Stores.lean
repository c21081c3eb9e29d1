import LedSketch.Script.Operation
import LedSketch.Script.Scope

namespace LedSketch.Script

/-!
# Values in stores

Scopes and arrays hold the values they were given.  Operators make numbers, texts and
truth values, so what concerns functions only has to be looked after where values move.
-/

/-- A property of values that all values have which are not functions. -/
def ConcernsFunctions (good : Value → Prop) : Prop :=
  ∀ value : Value, (∀ closure, value ≠ .function closure) → good value

section Scopes

variable {good : Value → Prop} {name : String} {value : Value}

/-- Bindings to good values. -/
def Bindings.Hold
    (good : Value → Prop)
    (bindings : Bindings) :
    Prop :=
  ∀ entry ∈ bindings, good entry.2

namespace Bindings.Hold

variable {bindings : Bindings}

/-- What is bound to a name is good. -/
theorem get?
    (hold : bindings.Hold good)
    (found : Bindings.get? name bindings = some value) :
    good value := by
  induction bindings with
  | nil => contradiction
  | cons first rest inductionHypothesis =>
      obtain ⟨isGood, others⟩ := List.forall_mem_cons.mp hold
      unfold Bindings.get? at found
      split at found
      · cases found
        exact isGood
      · exact inductionHypothesis others found

/-- A good value may be bound to a name. -/
theorem put
    (hold : bindings.Hold good)
    (isGood : good value) :
    (Bindings.put name value bindings).Hold good := by
  induction bindings with
  | nil => exact List.forall_mem_singleton.mpr isGood
  | cons first rest inductionHypothesis =>
      obtain ⟨goodFirst, others⟩ := List.forall_mem_cons.mp hold
      unfold Bindings.put
      split
      · exact List.forall_mem_cons.mpr ⟨isGood, others⟩
      · exact List.forall_mem_cons.mpr ⟨goodFirst, inductionHypothesis others⟩

end Bindings.Hold

/-- Scopes that bind good values. -/
def Scopes.Hold
    (good : Value → Prop)
    (scopes : Scopes) :
    Prop :=
  ∀ scope ∈ scopes.stack, scope.bindings.Hold good

/-- What is found in a scope or in one that encloses it is good. -/
theorem Scope.good_of_lookup
    {stack : List Scope}
    {id : Nat}
    (hold : ∀ scope ∈ stack, scope.bindings.Hold good)
    (found : lookup name stack id = some value) :
    good value := by
  induction stack generalizing id with
  | nil => contradiction
  | cons scope outer inductionHypothesis =>
      obtain ⟨holdFirst, others⟩ := List.forall_mem_cons.mp hold
      unfold lookup at found
      split at found
      · split at found
        · next bound =>
            cases found
            exact holdFirst.get? bound
        · split at found
          · exact inductionHypothesis others found
          · contradiction
      · exact inductionHypothesis others found

/-- A good value may be assigned to a name that is found. -/
theorem Scope.hold_assign?
    {stack assigned : List Scope}
    {id : Nat}
    (hold : ∀ scope ∈ stack, scope.bindings.Hold good)
    (isGood : good value)
    (found : assign? name value stack id = some assigned) :
    ∀ scope ∈ assigned, scope.bindings.Hold good := by
  obtain ⟨inner, scope, outer, rfl, rfl⟩ := exists_of_assign? found
  obtain ⟨holdInner, others⟩ := List.forall_mem_append.mp hold
  obtain ⟨holdScope, holdOuter⟩ := List.forall_mem_cons.mp others
  exact List.forall_mem_append.mpr
    ⟨holdInner, List.forall_mem_cons.mpr ⟨holdScope.put isGood, holdOuter⟩⟩

namespace Scopes.Hold

variable {scopes : Scopes}

/-- The outermost scope has the bindings that it begins with. -/
theorem ofBindings
    {bindings : Bindings}
    (hold : bindings.Hold good) :
    (Scopes.ofBindings bindings).Hold good :=
  List.forall_mem_singleton.mpr hold

/-- A scope that is opened binds nothing yet. -/
theorem pushUnder
    (hold : scopes.Hold good)
    (parent : Nat) :
    (scopes.pushUnder parent).Hold good :=
  List.forall_mem_cons.mpr ⟨by simp [Bindings.Hold], hold⟩

theorem push (hold : scopes.Hold good) : scopes.push.Hold good :=
  hold.pushUnder _

theorem pop (hold : scopes.Hold good) : scopes.pop.Hold good :=
  fun scope member => hold scope (List.mem_of_mem_drop member)

/-- A good value may be declared. -/
theorem declare
    (hold : scopes.Hold good)
    (isGood : good value) :
    (scopes.declare name value).Hold good := by
  unfold Scopes.declare
  split
  · next scope outer isStack =>
      have all := hold
      unfold Scopes.Hold at all
      rw [isStack] at all
      obtain ⟨first, others⟩ := List.forall_mem_cons.mp all
      exact List.forall_mem_cons.mpr ⟨first.put isGood, others⟩
  · exact hold

/-- What is found from a scope on is good. -/
theorem getFrom?
    {id : Nat}
    (hold : scopes.Hold good)
    (found : scopes.getFrom? id name = some value) :
    good value :=
  Scope.good_of_lookup hold found

/-- The elements of arrays are good. -/
theorem get?
    (hold : scopes.Hold good)
    (found : scopes.get? name = some value) :
    good value :=
  hold.getFrom? found

/-- A good value may be assigned. -/
theorem set?
    {assigned : Scopes}
    (hold : scopes.Hold good)
    (isGood : good value)
    (found : scopes.set? name value = some assigned) :
    assigned.Hold good := by
  obtain ⟨stack, changed, rfl⟩ := Option.map_eq_some_iff.mp found
  exact Scope.hold_assign? hold isGood changed

end Scopes.Hold

end Scopes

section Arrays

variable {good : Value → Prop} {heap : Heap}

/-- Arrays of good values. -/
def Heap.Hold
    (good : Value → Prop)
    (heap : Heap) :
    Prop :=
  ∀ items ∈ heap.arrays, ∀ item ∈ items, good item

namespace Heap.Hold

/-- At first there are no arrays. -/
theorem empty : Heap.empty.Hold good := by
  simp [Heap.Hold, Heap.empty]

theorem get?
    {id position : Nat}
    {value : Value}
    (hold : heap.Hold good)
    (found : heap.get? id position = some value) :
    good value := by
  obtain ⟨items, isArray, isItem⟩ := Option.bind_eq_some_iff.mp found
  exact hold items (Array.mem_of_getElem? isArray) value (Array.mem_of_getElem? isItem)

/-- An array of good items may be made. -/
theorem allocate
    {items : Array Value}
    (hold : heap.Hold good)
    (goodItems : ∀ item ∈ items, good item) :
    (heap.allocate items).2.Hold good := by
  intro other member
  rcases Array.mem_push.mp member with old | rfl
  · exact hold other old
  · exact goodItems

/-- A good value may be stored in an array. -/
theorem set
    {value : Value}
    (hold : heap.Hold good)
    (id position : Nat)
    (isGood : good value) :
    (heap.set id position value).Hold good := by
  intro items member
  obtain ⟨other, isArray⟩ := Array.mem_iff_getElem?.mp member
  rw [Heap.set, Array.getElem?_modify] at isArray
  split at isArray
  · obtain ⟨old, wasArray, rfl⟩ := Option.map_eq_some_iff.mp isArray
    intro item inItems
    rcases Array.mem_or_eq_of_mem_setIfInBounds inItems with wasItem | rfl
    · exact hold old (Array.mem_of_getElem? wasArray) item wasItem
    · exact isGood
  · exact hold items (Array.mem_of_getElem? isArray)

end Heap.Hold

end Arrays

namespace ConcernsFunctions

variable {good : Value → Prop}

/-- The value of what has none is good. -/
theorem undefined (plain : ConcernsFunctions good) : good .undefined :=
  plain _ fun _ => Value.noConfusion

theorem bool
    (plain : ConcernsFunctions good)
    (value : Bool) :
    good (.bool value) :=
  plain _ fun _ => Value.noConfusion

theorem int
    (plain : ConcernsFunctions good)
    (value : Int64) :
    good (.int value) :=
  plain _ fun _ => Value.noConfusion

theorem float
    (plain : ConcernsFunctions good)
    (value : Float) :
    good (.float value) :=
  plain _ fun _ => Value.noConfusion

theorem text
    (plain : ConcernsFunctions good)
    (value : String) :
    good (.text value) :=
  plain _ fun _ => Value.noConfusion

theorem array
    (plain : ConcernsFunctions good)
    (id : Nat) :
    good (.array id) :=
  plain _ fun _ => Value.noConfusion

theorem object
    (plain : ConcernsFunctions good)
    (handle : Handle) :
    good (.object handle) :=
  plain _ fun _ => Value.noConfusion

end ConcernsFunctions

/-- A computation that has only good results. -/
def Yields
    {ε α : Type}
    (good : α → Prop)
    (computed : Except ε α) :
    Prop :=
  ∀ result, computed = .ok result → good result

namespace Yields

variable {ε α β : Type} {good : β → Prop}

theorem ok
    {result : β}
    (isGood : good result) :
    Yields good (.ok result : Except ε β) := by
  rintro _ ⟨⟩
  exact isGood

theorem error {fault : ε} : Yields good (.error fault : Except ε β) := by
  rintro _ ⟨⟩

/-- A computation yields what the last of its parts yields. -/
theorem bind
    {computed : Except ε α}
    {next : α → Except ε β}
    (later : ∀ result, Yields good (next result)) :
    Yields good (computed >>= next) := by
  cases computed with
  | ok result => exact later result
  | error fault => exact error

/-- A result that is changed is good if the change makes it so. -/
theorem map
    {computed : Except ε α}
    {change : α → β}
    (isGood : ∀ result, good (change result)) :
    Yields good (computed.map change) := by
  cases computed with
  | ok result => exact ok (isGood result)
  | error fault => exact error

end Yields

section Operators

variable {good : Value → Prop}

/-- Operators compute no functions. -/
theorem Value.yields_binary
    (plain : ConcernsFunctions good)
    (heap : Heap)
    (op : BinaryOp)
    (left right : Value) :
    Yields good (binary heap op left right) := by
  have arithmetic (onInts : Int64 → Int64 → Int64) (onFloats : Float → Float → Float) :
      Yields good (Value.arithmetic onInts onFloats left right) := by
    refine .bind fun first => .bind fun second => ?_
    split
    · exact .ok (plain.int _)
    · exact .ok (plain.float _)
  have divide (onInts : Int64 → Int64 → Int64) (onFloats : Float → Float → Float) :
      Yields good (Value.divide onInts onFloats left right) := by
    refine .bind fun first => .bind fun second => ?_
    split
    · split
      · exact .error
      · exact .ok (plain.int _)
    · exact .ok (plain.float _)
  have bitwise (onInts : Int64 → Int64 → Int64) :
      Yields good (Value.bitwise onInts left right) :=
    .bind fun first => .bind fun second => .ok (plain.int _)
  have comparison (holds : Option Ordering → Bool) :
      Yields good (Value.comparison holds left right) :=
    .bind fun order => .ok (plain.bool _)
  cases op with
  | add =>
      unfold binary add
      dsimp only
      split
      · exact .ok (plain.text _)
      · exact arithmetic _ _
  | sub | mul => exact arithmetic _ _
  | div | rem => exact divide _ _
  | bitAnd | bitOr | bitXor | shiftLeft | shiftRight => exact bitwise _
  | equal | notEqual => exact .ok (plain.bool _)
  | less | greater | lessEqual | greaterEqual => exact comparison _

/-- An operator on one operand yields a number or a truth value. -/
theorem Value.yields_unary
    (plain : ConcernsFunctions good)
    (op : UnaryOp)
    (operand : Value) :
    Yields good (unary op operand) := by
  have withSign (onInt : Int64 → Int64) (onFloat : Float → Float) :
      Yields good (Value.withSign onInt onFloat operand) := by
    refine .bind fun number => ?_
    split
    · exact .ok (plain.int _)
    · exact .ok (plain.float _)
  cases op with
  | not => exact .ok (plain.bool _)
  | neg | plus => exact withSign _ _
  | bitNot => exact .map fun _ => plain.int _

/-- A cast yields a number, a text or a truth value. -/
theorem Value.yields_cast
    (plain : ConcernsFunctions good)
    (kind : CastKind)
    (operand : Value) :
    Yields good (cast kind operand) := by
  cases kind with
  | int width signed => exact .map fun _ => plain.int _
  | float => exact .map fun _ => plain.float _
  | bool => exact .ok (plain.bool _)

end Operators

end LedSketch.Script
