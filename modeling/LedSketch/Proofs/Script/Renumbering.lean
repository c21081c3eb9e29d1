import LedSketch.Proofs.Script.Stores

namespace LedSketch.Script

/-!
# Renumbering

Scopes and declaration events are numbered in the order in which a run comes to them.  A
script cannot see these numbers: with other ones, its functions are printed, compared and
computed with in the same way, and its variables are found in the same scopes.
-/

/-- Other numbers for scopes and for declaration events, different ones for different ones. -/
structure Renumbering where
  scope : Nat → Nat
  birth : Nat → Nat
  scope_injective : ∀ {left right : Nat}, scope left = scope right → left = right
  birth_injective : ∀ {left right : Nat}, birth left = birth right → left = right
  globalId : scope Scopes.globalId = Scopes.globalId

section Definitions

variable (numbers : Renumbering)

/-- A function with other numbers. -/
def Closure.renumbered (closure : Closure) : Closure where
  function := closure.function
  scope := numbers.scope closure.scope
  birth := numbers.birth closure.birth

/-- A value with other numbers. -/
def Value.renumbered : Value → Value
  | .function closure => .function (closure.renumbered numbers)
  | value => value

/-- Bindings to values with other numbers. -/
def Bindings.renumbered (bindings : Bindings) : Bindings :=
  bindings.map fun binding => (binding.1, binding.2.renumbered numbers)

/-- A scope with another number, whose values have other numbers. -/
def Scope.renumbered (scope : Scope) : Scope where
  id := numbers.scope scope.id
  parent := scope.parent.map numbers.scope
  bindings := scope.bindings.renumbered numbers

/-- Scopes with other numbers. -/
def Scopes.renumbered (scopes : Scopes) : Scopes where
  stack := scopes.stack.map (Scope.renumbered numbers)
  next := numbers.scope scopes.next

/-- Arrays of values with other numbers. -/
def Heap.renumbered (heap : Heap) : Heap where
  arrays := heap.arrays.map fun items => items.map (Value.renumbered numbers)

end Definitions

section Operations

variable {numbers : Renumbering} {value : Value}

/-- Different scopes keep different numbers. -/
theorem Renumbering.scope_inj
    (numbers : Renumbering)
    {left right : Nat} :
    numbers.scope left = numbers.scope right ↔ left = right :=
  ⟨numbers.scope_injective, congrArg numbers.scope⟩

/-- Different functions keep different births. -/
theorem Renumbering.birth_inj
    (numbers : Renumbering)
    {left right : Nat} :
    numbers.birth left = numbers.birth right ↔ left = right :=
  ⟨numbers.birth_injective, congrArg numbers.birth⟩

@[simp] theorem Scope.id_renumbered (scope : Scope) :
    (scope.renumbered numbers).id = numbers.scope scope.id :=
  rfl

@[simp] theorem Scope.parent_renumbered (scope : Scope) :
    (scope.renumbered numbers).parent = scope.parent.map numbers.scope :=
  rfl

@[simp] theorem Scope.bindings_renumbered (scope : Scope) :
    (scope.renumbered numbers).bindings = scope.bindings.renumbered numbers :=
  rfl

/-- Values that keep their numbers concern functions only. -/
theorem concernsFunctions_renumbered (numbers : Renumbering) :
    ConcernsFunctions fun value => value.renumbered numbers = value := by
  intro value noFunction
  cases value with
  | function closure => exact (noFunction closure rfl).elim
  | _ => rfl

/-- Functions are the same before and after. -/
theorem Closure.same_renumbered (left right : Closure) :
    (left.renumbered numbers).same (right.renumbered numbers) = left.same right := by
  unfold same renumbered
  rw [decide_eq_decide.mpr numbers.birth_inj]

namespace Value

@[simp] theorem typeName_renumbered : (value.renumbered numbers).typeName = value.typeName := by
  cases value <;> rfl

@[simp] theorem truthy_renumbered : (value.renumbered numbers).truthy = value.truthy := by
  cases value <;> rfl

@[simp] theorem isFloat_renumbered : (value.renumbered numbers).isFloat = value.isFloat := by
  cases value <;> rfl

@[simp] theorem isText_renumbered : (value.renumbered numbers).isText = value.isText := by
  cases value <;> rfl

@[simp] theorem isCallable_renumbered :
    (value.renumbered numbers).isCallable = value.isCallable := by
  cases value <;> rfl

@[simp] theorem numeric_renumbered : (value.renumbered numbers).numeric = value.numeric := by
  cases value <;> rfl

@[simp] theorem toInt64_renumbered : (value.renumbered numbers).toInt64 = value.toInt64 := by
  rw [toInt64, numeric_renumbered, toInt64]

@[simp] theorem toFloat_renumbered : (value.renumbered numbers).toFloat = value.toFloat := by
  rw [toFloat, numeric_renumbered, toFloat]

/-- Functions keep being equal or different, since their births do. -/
@[simp] theorem equal_renumbered (left right : Value) :
    equal (left.renumbered numbers) (right.renumbered numbers) = equal left right := by
  cases left with
  | function left =>
      cases right with
      | function right => exact left.same_renumbered right
      | _ => rfl
  | _ => cases right <;> rfl

/-- Values are in the same order. -/
@[simp] theorem order_renumbered (left right : Value) :
    order (left.renumbered numbers) (right.renumbered numbers) = order left right := by
  cases left <;> cases right <;> rfl

end Value

/-- To change one item and then all of them is to change them first and then the one. -/
theorem map_modify
    {α β : Type}
    {change : α → β}
    {inner : α → α}
    {outer : β → β}
    (same : ∀ item, change (inner item) = outer (change item))
    (items : Array α)
    (position : Nat) :
    (items.modify position inner).map change = (items.map change).modify position outer := by
  apply Array.ext_getElem?
  intro other
  rw [Array.getElem?_map, Array.getElem?_modify, Array.getElem?_modify, Array.getElem?_map]
  split
  · cases items[other]? with
    | none => rfl
    | some item => exact congrArg some (same item)
  · rfl

namespace Heap

variable {heap : Heap}

/-- Arrays keep their lengths. -/
@[simp] theorem length_renumbered (id : Nat) :
    (heap.renumbered numbers).length id = heap.length id := by
  unfold length renumbered
  rw [Array.getElem?_map]
  cases heap.arrays[id]? with
  | none => rfl
  | some items => exact Array.size_map

/-- The elements of an array are renumbered. -/
@[simp] theorem get?_renumbered (id position : Nat) :
    (heap.renumbered numbers).get? id position =
      (heap.get? id position).map (Value.renumbered numbers) := by
  unfold get? renumbered
  rw [Array.getElem?_map]
  cases heap.arrays[id]? with
  | none => rfl
  | some items => exact Array.getElem?_map

/-- A renumbered value is stored. -/
theorem set_renumbered
    (id position : Nat)
    (value : Value) :
    (heap.renumbered numbers).set id position (value.renumbered numbers) =
      (heap.set id position value).renumbered numbers := by
  unfold set renumbered
  dsimp only
  rw [map_modify]
  intro items
  exact Array.map_setIfInBounds

/-- A new array gets the number that it would have got. -/
theorem allocate_renumbered
    (numbers : Renumbering)
    (heap : Heap)
    (items : Array Value) :
    (heap.renumbered numbers).allocate (items.map (Value.renumbered numbers)) =
      ((heap.allocate items).1, (heap.allocate items).2.renumbered numbers) := by
  unfold allocate renumbered
  rw [Array.size_map, Array.map_push]

/-- A function is printed by its name. -/
theorem displayWithin_renumbered_value
    (depth : Nat)
    (value : Value) :
    heap.displayWithin depth (value.renumbered numbers) = heap.displayWithin depth value := by
  cases value with
  | function closure => cases depth <;> rfl
  | _ => rfl

/-- At each depth arrays are shown without the numbers of scopes. -/
theorem displayWithin_renumbered
    (depth : Nat)
    (value : Value) :
    (heap.renumbered numbers).displayWithin depth value = heap.displayWithin depth value := by
  induction depth generalizing value with
  | zero => rfl
  | succ depth inductionHypothesis =>
      cases value with
      | array id =>
          have items :
              ((heap.renumbered numbers).arrays[id]?.getD #[]).toList =
                (heap.arrays[id]?.getD #[]).toList.map (Value.renumbered numbers) := by
            unfold renumbered
            rw [Array.getElem?_map]
            cases heap.arrays[id]? with
            | none => rfl
            | some items => exact Array.toList_map
          unfold displayWithin
          dsimp only
          rw [items, List.map_map]
          refine congrArg (fun texts => "[" ++ String.intercalate ", " texts ++ "]") ?_
          exact List.map_congr_left fun item _ =>
            (inductionHypothesis _).trans (displayWithin_renumbered_value depth item)
      | _ => rfl

@[simp] theorem display_renumbered (value : Value) :
    (heap.renumbered numbers).display value = heap.display value := by
  unfold display
  rw [displayWithin_renumbered, renumbered, Array.size_map]

@[simp] theorem display_renumbered_value (value : Value) :
    heap.display (value.renumbered numbers) = heap.display value :=
  displayWithin_renumbered_value _ value

end Heap

namespace Value

/-- Operators do not look at the numbers of scopes. -/
theorem binary_renumbered
    (heap : Heap)
    (op : BinaryOp)
    (left right : Value) :
    binary (heap.renumbered numbers) op (left.renumbered numbers) (right.renumbered numbers) =
      binary heap op left right := by
  cases op <;>
    simp only [binary, add, arithmetic, divide, bitwise, comparison, isText_renumbered,
      Heap.display_renumbered, Heap.display_renumbered_value, numeric_renumbered,
      toInt64_renumbered, equal_renumbered, order_renumbered]

theorem unary_renumbered
    (op : UnaryOp)
    (operand : Value) :
    unary op (operand.renumbered numbers) = unary op operand := by
  cases op <;>
    simp only [unary, withSign, truthy_renumbered, numeric_renumbered, toInt64_renumbered]

/-- Casts do not look at the numbers of scopes. -/
theorem cast_renumbered
    (kind : CastKind)
    (operand : Value) :
    cast kind (operand.renumbered numbers) = cast kind operand := by
  cases kind <;>
    simp only [cast, truthy_renumbered, toInt64_renumbered, toFloat_renumbered]

end Value

namespace Bindings

variable {bindings : Bindings}

/-- What is bound is renumbered. -/
theorem get?_renumbered (name : String) :
    get? name (bindings.renumbered numbers) =
      (get? name bindings).map (Value.renumbered numbers) := by
  induction bindings with
  | nil => rfl
  | cons first rest inductionHypothesis =>
      by_cases same : first.1 = name
      · simp [renumbered, get?, same]
      · simpa [renumbered, get?, same] using inductionHypothesis

/-- A renumbered value is bound. -/
theorem put_renumbered
    (name : String)
    (value : Value) :
    put name (value.renumbered numbers) (bindings.renumbered numbers) =
      renumbered numbers (put name value bindings) := by
  induction bindings with
  | nil => rfl
  | cons first rest inductionHypothesis =>
      by_cases same : first.1 = name
      · simp [renumbered, put, same]
      · simpa [renumbered, put, same] using inductionHypothesis

end Bindings

end Operations

section Agreement

variable {numbers other : Renumbering}

/-- Two renumberings that give a value the same numbers. -/
def Renumbering.Agree
    (numbers other : Renumbering)
    (value : Value) :
    Prop :=
  value.renumbered numbers = value.renumbered other

/-- The renumbering that keeps all numbers. -/
def Renumbering.same : Renumbering where
  scope := id
  birth := id
  scope_injective := id
  birth_injective := id
  globalId := rfl

theorem Value.renumbered_same (value : Value) : value.renumbered .same = value := by
  cases value <;> rfl

theorem Bindings.renumbered_same (bindings : Bindings) : bindings.renumbered .same = bindings :=
  (List.map_congr_left fun binding _ =>
    congrArg (binding.1, ·) binding.2.renumbered_same).trans (List.map_id' bindings)

theorem Heap.renumbered_same (heap : Heap) : heap.renumbered .same = heap := by
  unfold Heap.renumbered
  rw [funext Value.renumbered_same]
  simp only [Array.map_id']

theorem Bindings.renumbered_congr
    {bindings : Bindings}
    (agree : bindings.Hold (numbers.Agree other)) :
    bindings.renumbered numbers = bindings.renumbered other :=
  List.map_congr_left fun binding member => congrArg (binding.1, ·) (agree binding member)

/-- Numbers that agree for the values of arrays renumber the arrays alike. -/
theorem Heap.renumbered_congr
    {heap : Heap}
    (agree : heap.Hold (numbers.Agree other)) :
    heap.renumbered numbers = heap.renumbered other := by
  unfold Heap.renumbered
  congr 1
  refine Array.map_congr_left fun items isArray => ?_
  exact Array.map_congr_left fun item member => agree items isArray item member

end Agreement

/-- If the value is a function, its numbers are smaller than the next ones. -/
def Value.Known
    (scopes births : Nat)
    (value : Value) :
    Prop :=
  ∀ closure, value = .function closure → closure.scope < scopes ∧ closure.birth < births

/-- Only functions have numbers that may be unknown. -/
theorem concernsFunctions_known (scopes births : Nat) :
    ConcernsFunctions (Value.Known scopes births) :=
  fun _ noFunction closure isFunction => (noFunction closure isFunction).elim

end LedSketch.Script
