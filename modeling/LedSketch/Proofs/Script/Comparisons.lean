import LedSketch.Script.Operation
import Mathlib.Logic.ExistsUnique

namespace LedSketch.Script

/-!
# Comparisons

Equality and the four orderings agree.  Two numbers or truth values, or two texts, have one of
the three orders, from which all comparisons read their answers; other values have none, and can
only be equal or different.
-/

namespace Value

/-- What equality looks at in a value that is no float. -/
inductive Identity where
  | undefined
  | number (number : Int64)
  | text (text : String)
  | array (id : Nat)
  | function (birth : Nat) (name : String)
  | builtin (native : Builtin)
  | object (handle : Handle)

/-- The identity of a value; a truth value is 0 or 1, and a float has none. -/
def identity? : Value → Option Identity
  | .undefined => some .undefined
  | .bool value => some (.number (if value then 1 else 0))
  | .int value => some (.number value)
  | .float _ => none
  | .text value => some (.text value)
  | .array id => some (.array id)
  | .function closure => some (.function closure.birth closure.function.name)
  | .builtin native => some (.builtin native)
  | .object handle => some (.object handle)

section Equality

variable {left right : Value}

/-- Values without floats are equal when they have the same identity. -/
theorem equal_iff
    (noFloatLeft : left.isFloat = false)
    (noFloatRight : right.isFloat = false) :
    equal left right = true ↔ left.identity? = right.identity? := by
  cases left with
  | float => contradiction
  | undefined | bool | int | text | array | function | builtin | object =>
      cases right with
      | float => contradiction
      | undefined | bool | int | text | array | function | builtin | object =>
          simp [equal, identity?, numeric?, numericEqual, Closure.same]

end Equality

/-- Whether two values are both numbers or truth values, or both texts. -/
def Comparable (left right : Value) : Prop :=
  (left.numeric?.isSome = true ∧ right.numeric?.isSome = true) ∨
    (left.isText = true ∧ right.isText = true)

/-- The order of two comparable values without floats. -/
inductive Ordered : Value → Value → Ordering → Prop where
  | numbers
      {left right : Value}
      {first second : Int64}
      (isFirst : left.numeric? = some (.int first))
      (isSecond : right.numeric? = some (.int second)) :
      Ordered left right (compare first.toInt second.toInt)
  | texts
      (first second : String) :
      Ordered (.text first) (.text second) (orderTexts first second)

section Texts

variable {first second third : String}

/-- Texts are ordered as strings are. -/
theorem orderTexts_eq_lt : orderTexts first second = .lt ↔ first < second := by
  unfold orderTexts
  split
  · next less => simp [less]
  · next notLess => split <;> simp [notLess]

theorem orderTexts_eq_eq : orderTexts first second = .eq ↔ first = second := by
  unfold orderTexts
  split
  · next less =>
      refine iff_of_false nofun fun same => ?_
      exact String.lt_irrefl first (same ▸ less)
  · split <;> simp [*]

theorem orderTexts_eq_gt : orderTexts first second = .gt ↔ second < first := by
  unfold orderTexts
  split
  · next less => exact iff_of_false nofun (String.lt_asymm less)
  · next notLess =>
      split
      · next same => exact iff_of_false nofun (same ▸ String.lt_irrefl second)
      · next different =>
          refine iff_of_true rfl (String.not_le.mp fun le => different ?_)
          exact String.le_antisymm le (String.not_lt.mp notLess)

/-- The other way round, texts are ordered the other way. -/
theorem swap_orderTexts : (orderTexts first second).swap = orderTexts second first := by
  cases order : orderTexts first second with
  | lt => exact (orderTexts_eq_gt.mpr (orderTexts_eq_lt.mp order)).symm
  | eq => exact (orderTexts_eq_eq.mpr (orderTexts_eq_eq.mp order).symm).symm
  | gt => exact (orderTexts_eq_lt.mpr (orderTexts_eq_gt.mp order)).symm

end Texts

/-- A number that is no float is an integer. -/
theorem exists_int
    {value : Value}
    (noFloat : value.isFloat = false)
    (isNumber : value.numeric?.isSome = true) :
    ∃ number, value.numeric? = some (.int number) := by
  cases value with
  | float => contradiction
  | bool | int => exact ⟨_, rfl⟩
  | undefined | text | array | function | builtin | object => contradiction

theorem of_int
    {value : Value}
    {number : Int64}
    (isInt : value.numeric? = some (.int number)) :
    value.isFloat = false ∧ value.identity? = some (.number number) := by
  cases value with
  | bool | int =>
      cases isInt
      exact ⟨rfl, rfl⟩
  | float => cases isInt
  | undefined | text | array | function | builtin | object => contradiction

/-- Values without floats that can be compared have an order. -/
theorem Comparable.exists_ordered
    {left right : Value}
    (comparable : Comparable left right)
    (noFloatLeft : left.isFloat = false)
    (noFloatRight : right.isFloat = false) :
    ∃ ordering, Ordered left right ordering := by
  rcases comparable with ⟨isLeft, isRight⟩ | ⟨isLeft, isRight⟩
  · obtain ⟨first, isFirst⟩ := exists_int noFloatLeft isLeft
    obtain ⟨second, isSecond⟩ := exists_int noFloatRight isRight
    exact ⟨_, .numbers isFirst isSecond⟩
  · cases left with
    | text first =>
        cases right with
        | text second => exact ⟨_, .texts first second⟩
        | undefined | bool | int | float | array | function | builtin | object => contradiction
    | undefined | bool | int | float | array | function | builtin | object => contradiction

namespace Ordered

variable {first second third left right : Value} {ordering : Ordering}

/-- Values that are ordered are compared successfully. -/
theorem order_eq
    (ordered : Ordered left right ordering) :
    order left right = .ok (some ordering) := by
  cases ordered with
  | numbers isFirst isSecond =>
      unfold order
      split
      · contradiction
      · simp only [numeric, isFirst, isSecond]
        rfl
  | texts first second => rfl

/-- The other way round, values are ordered the other way. -/
theorem swap
    (ordered : Ordered left right ordering) :
    Ordered right left ordering.swap := by
  cases ordered with
  | numbers isFirst isSecond =>
      rw [Int.compare_swap]
      exact .numbers isSecond isFirst
  | texts first second =>
      rw [swap_orderTexts]
      exact .texts second first

/-- Values are equal when their order says so. -/
theorem equal_iff
    (ordered : Ordered left right ordering) :
    equal left right = true ↔ ordering = .eq := by
  cases ordered with
  | numbers isFirst isSecond =>
      obtain ⟨noFloatLeft, identityLeft⟩ := of_int isFirst
      obtain ⟨noFloatRight, identityRight⟩ := of_int isSecond
      rw [Value.equal_iff noFloatLeft noFloatRight, identityLeft, identityRight,
        Std.compare_eq_iff_eq, Int64.toInt_inj, Option.some.injEq, Identity.number.injEq]
  | texts first second =>
      rw [orderTexts_eq_eq]
      exact decide_eq_true_iff

/-- What a lower order of two values means. -/
theorem less_cases
    (ordered : Ordered left right ordering)
    (isLess : ordering = .lt) :
    (∃ first second, left.numeric? = some (.int first) ∧
        right.numeric? = some (.int second) ∧ first.toInt < second.toInt) ∨
      ∃ first second, left = .text first ∧ right = .text second ∧ first < second := by
  cases ordered with
  | numbers isFirst isSecond =>
      exact .inl ⟨_, _, isFirst, isSecond, Int.compare_eq_lt.mp isLess⟩
  | texts first second => exact .inr ⟨first, second, rfl, rfl, orderTexts_eq_lt.mp isLess⟩

/-- The order is transitive. -/
theorem trans_less
    (firstSecond : Ordered first second .lt)
    (secondThird : Ordered second third .lt) :
    Ordered first third .lt := by
  rcases firstSecond.less_cases rfl with
    ⟨lower, middle, isLower, isMiddle, less⟩ | ⟨lower, middle, rfl, rfl, less⟩
  · rcases secondThird.less_cases rfl with
      ⟨again, upper, isAgain, isUpper, lessUpper⟩ | ⟨_, _, rfl, -, -⟩
    · cases isMiddle.symm.trans isAgain
      have isLess := Int.compare_eq_lt.mpr (Int.lt_trans less lessUpper)
      exact isLess ▸ .numbers isLower isUpper
    · contradiction
  · rcases secondThird.less_cases rfl with ⟨_, _, isAgain, -, -⟩ | ⟨_, upper, same, rfl, lessUpper⟩
    · contradiction
    · cases same
      have isLess := orderTexts_eq_lt.mpr (String.lt_trans less lessUpper)
      exact isLess ▸ .texts lower upper

end Ordered

/-- Whether a comparison of two values holds. -/
def Holds
    (heap : Heap)
    (op : BinaryOp)
    (left right : Value) :
    Prop :=
  binary heap op left right = .ok (.bool true)

/-- The operators that ask for the order of their operands. -/
def orderings : List BinaryOp := [.less, .greater, .lessEqual, .greaterEqual]

/-- Whether a comparison fails since one of the operands is no number. -/
def Refused
    (heap : Heap)
    (op : BinaryOp)
    (left right : Value) :
    Prop :=
  ∃ operand ∈ [left, right],
    operand.numeric? = none ∧
      binary heap op left right = .error (.notANumber operand.typeName)

section Comparisons

variable {heap : Heap} {left right : Value} {ordering : Ordering}

/-- A comparison tells what holds of the order. -/
theorem comparison_of_order
    {found : Option Ordering}
    (isOrder : order left right = .ok found)
    (holds : Option Ordering → Bool) :
    comparison holds left right = .ok (.bool (holds found)) := by
  rw [comparison, isOrder]
  rfl

/-- What the comparisons answer about values that have an order. -/
theorem Ordered.holds_iff
    (ordered : Ordered left right ordering) :
    (Holds heap .less left right ↔ ordering = .lt) ∧
      (Holds heap .greater left right ↔ ordering = .gt) ∧
      (Holds heap .equal left right ↔ ordering = .eq) ∧
      (Holds heap .lessEqual left right ↔ ordering = .lt ∨ ordering = .eq) ∧
      (Holds heap .greaterEqual left right ↔ ordering = .gt ∨ ordering = .eq) := by
  have answer (holds : Option Ordering → Bool) :
      comparison holds left right = .ok (.bool true) ↔ holds (some ordering) = true := by
    rw [comparison_of_order ordered.order_eq, Except.ok.injEq, Value.bool.injEq]
  have isEqual : Holds heap .equal left right ↔ ordering = .eq := by
    rw [← ordered.equal_iff, Holds, binary, Except.ok.injEq, Value.bool.injEq]
  refine ⟨(answer _).trans ?_, (answer _).trans ?_, isEqual, (answer _).trans ?_,
    (answer _).trans ?_⟩
  all_goals cases ordering <;> decide

/-- Without an order, an operand that is no number is at fault. -/
theorem order_of_not_comparable
    (notComparable : ¬ Comparable left right) :
    ∃ operand ∈ [left, right],
      operand.numeric? = none ∧ order left right = .error (.notANumber operand.typeName) := by
  have noTexts : ∀ first second, left = .text first → right ≠ .text second := by
    rintro first second rfl rfl
    exact notComparable (.inr ⟨rfl, rfl⟩)
  have byNumbers : order left right = (do
      let first ← left.numeric
      let second ← right.numeric
      return orderNumbers first second) := by
    unfold order
    split
    · exact absurd rfl (noTexts _ _ rfl)
    · rfl
  cases isFirst : left.numeric? with
  | none =>
      refine ⟨left, List.mem_cons_self, isFirst, ?_⟩
      simp only [byNumbers, numeric, isFirst]
      rfl
  | some first =>
      have noSecond : right.numeric? = none := by
        refine Option.not_isSome_iff_eq_none.mp fun isSecond => notComparable (.inl ⟨?_, isSecond⟩)
        rw [isFirst]
        rfl
      refine ⟨right, List.mem_cons_of_mem left List.mem_cons_self, noSecond, ?_⟩
      simp only [byNumbers, numeric, isFirst, noSecond]
      rfl

/-- Values that cannot be compared are refused by every ordering. -/
theorem binary_of_not_comparable
    {op : BinaryOp}
    (isOrdering : op ∈ orderings)
    (notComparable : ¬ Comparable left right) :
    Refused heap op left right := by
  obtain ⟨operand, isOperand, noNumber, isOrder⟩ := order_of_not_comparable notComparable
  refine ⟨operand, isOperand, noNumber, ?_⟩
  have fails (holds : Option Ordering → Bool) :
      comparison holds left right = .error (.notANumber operand.typeName) := by
    rw [comparison, isOrder]
    rfl
  simp only [orderings, List.mem_cons, List.not_mem_nil, or_false] at isOrdering
  rcases isOrdering with rfl | rfl | rfl | rfl <;> exact fails _

theorem Comparable.symm (comparable : Comparable left right) : Comparable right left :=
  comparable.imp And.symm And.symm

/-- Only comparable values are one less than the other. -/
theorem comparable_of_less (less : Holds heap .less left right) : Comparable left right := by
  refine Classical.byContradiction fun notComparable => ?_
  obtain ⟨operand, -, -, fails⟩ :=
    @binary_of_not_comparable heap left right .less (by decide) notComparable
  rw [Holds, fails] at less
  contradiction

end Comparisons

/-- Equality is an equivalence of values without floats, by identity where values are shared. -/
structure EqualityLaws (heap : Heap) : Prop where
  refl :
    ∀ value : Value, value.isFloat = false → Holds heap .equal value value
  symm :
    ∀ first second : Value, first.isFloat = false → second.isFloat = false →
      Holds heap .equal first second → Holds heap .equal second first
  trans :
    ∀ first second third : Value,
      first.isFloat = false → second.isFloat = false → third.isFloat = false →
        Holds heap .equal first second → Holds heap .equal second third →
          Holds heap .equal first third
  /-- Arrays are equal when they are the same array, whatever their items. -/
  arrays :
    ∀ first second, Holds heap .equal (.array first) (.array second) ↔ first = second
  /-- Functions are equal when they come from the same declaration event. -/
  functions :
    ∀ first second : Closure,
      Holds heap .equal (.function first) (.function second) ↔
        first.birth = second.birth ∧ first.function.name = second.function.name

/-- What the comparisons of two values have to do with each other. -/
structure OrderLaws
    (heap : Heap)
    (left right : Value) :
    Prop where
  answered :
    ∀ op ∈ .equal :: orderings, ∃ answer, binary heap op left right = .ok (.bool answer)
  exactlyOne :
    ∃! op, op ∈ [BinaryOp.less, .equal, .greater] ∧ Holds heap op left right
  lessEqual :
    Holds heap .lessEqual left right ↔
      Holds heap .less left right ∨ Holds heap .equal left right
  greaterEqual :
    Holds heap .greaterEqual left right ↔
      Holds heap .greater left right ∨ Holds heap .equal left right
  converse :
    Holds heap .less left right ↔ Holds heap .greater right left

/-- Two values that can only be equal or different. -/
structure Unordered
    (heap : Heap)
    (left right : Value) :
    Prop where
  refused :
    ∀ op ∈ orderings, Refused heap op left right ∧ Refused heap op right left
  answered :
    ∃ answer, binary heap .equal left right = .ok (.bool answer)

section Laws

variable {heap : Heap} {left right : Value} {ordering : Ordering}

/-- Values are equal if they are identical. -/
theorem holds_equal_iff
    (noFloatLeft : left.isFloat = false)
    (noFloatRight : right.isFloat = false) :
    Holds heap .equal left right ↔ left.identity? = right.identity? := by
  rw [← equal_iff noFloatLeft noFloatRight, Holds, binary, Except.ok.injEq, Value.bool.injEq]

/-- Equality is an equivalence, and refuses no values. -/
theorem equalityLaws (heap : Heap) : EqualityLaws heap where
  refl value noFloat := (holds_equal_iff noFloat noFloat).mpr rfl
  symm first second noFloatFirst noFloatSecond same :=
    (holds_equal_iff noFloatSecond noFloatFirst).mpr
      ((holds_equal_iff noFloatFirst noFloatSecond).mp same).symm
  trans first second third noFloatFirst noFloatSecond noFloatThird firstSecond secondThird :=
    (holds_equal_iff noFloatFirst noFloatThird).mpr
      (((holds_equal_iff noFloatFirst noFloatSecond).mp firstSecond).trans
        ((holds_equal_iff noFloatSecond noFloatThird).mp secondThird))
  arrays first second := by
    rw [holds_equal_iff rfl rfl]
    simp [identity?]
  functions first second := by
    rw [holds_equal_iff rfl rfl]
    simp [identity?]

/-- The one operator among three that holds of two values of some order. -/
def assertion : Ordering → BinaryOp
  | .lt => .less
  | .eq => .equal
  | .gt => .greater

/-- Of less, equal and greater exactly one holds. -/
theorem Ordered.holds_iff_assertion
    (ordered : Ordered left right ordering) :
    ∀ op ∈ [BinaryOp.less, .equal, .greater],
      Holds heap op left right ↔ op = assertion ordering := by
  obtain ⟨less, greater, equal, -, -⟩ := @holds_iff heap _ _ _ ordered
  simp only [List.forall_mem_cons, List.not_mem_nil, false_imp_iff, implies_true, and_true]
  rw [less, equal, greater]
  cases ordering <;> decide

/-- The comparisons of ordered values agree with each other. -/
theorem Ordered.orderLaws (ordered : Ordered left right ordering) : OrderLaws heap left right := by
  obtain ⟨less, greater, equal, lessEqual, greaterEqual⟩ := @holds_iff heap _ _ _ ordered
  have converse := (@holds_iff heap _ _ _ ordered.swap).2.1
  refine ⟨?_, ?_, ?_, ?_, ?_⟩
  · simp only [orderings, List.forall_mem_cons, List.not_mem_nil, false_imp_iff, implies_true,
      and_true]
    have isOrder := ordered.order_eq
    exact ⟨⟨_, rfl⟩, ⟨_, comparison_of_order isOrder _⟩, ⟨_, comparison_of_order isOrder _⟩,
      ⟨_, comparison_of_order isOrder _⟩, ⟨_, comparison_of_order isOrder _⟩⟩
  · have holdsIff := @holds_iff_assertion heap _ _ _ ordered
    have isOne : assertion ordering ∈ [BinaryOp.less, .equal, .greater] := by
      cases ordering <;> decide
    exact ⟨assertion ordering, ⟨isOne, (holdsIff _ isOne).mpr rfl⟩, fun op isOther =>
      (holdsIff op isOther.1).mp isOther.2⟩
  · rw [lessEqual, less, equal]
  · rw [greaterEqual, greater, equal]
  · rw [less, converse]
    cases ordering <;> decide

/-- Values that cannot be compared are refused by all orderings. -/
theorem unordered (notComparable : ¬ Comparable left right) : Unordered heap left right where
  refused _ isOrdering :=
    ⟨binary_of_not_comparable isOrdering notComparable,
      binary_of_not_comparable isOrdering fun comparable => notComparable comparable.symm⟩
  answered := ⟨_, rfl⟩

/-- The order of values is transitive. -/
theorem less_trans
    {first second third : Value}
    (noFloatFirst : first.isFloat = false)
    (noFloatSecond : second.isFloat = false)
    (noFloatThird : third.isFloat = false)
    (firstSecond : Holds heap .less first second)
    (secondThird : Holds heap .less second third) :
    Holds heap .less first third := by
  obtain ⟨lower, isLower⟩ :=
    (comparable_of_less firstSecond).exists_ordered noFloatFirst noFloatSecond
  obtain ⟨upper, isUpper⟩ :=
    (comparable_of_less secondThird).exists_ordered noFloatSecond noFloatThird
  obtain rfl := isLower.holds_iff.1.mp firstSecond
  obtain rfl := isUpper.holds_iff.1.mp secondThird
  exact (isLower.trans_less isUpper).holds_iff.1.mpr rfl

end Laws

/--
Without floats equality is an equivalence, numbers and truth values are ordered by number and
texts by content, all comparisons of them agree, and the orderings of other values fail.
-/
theorem comparisons_coherent (heap : Heap) :
    EqualityLaws heap ∧
      (∀ left right : Value, left.isFloat = false → right.isFloat = false →
        (Comparable left right → OrderLaws heap left right) ∧
          (¬ Comparable left right → Unordered heap left right)) ∧
      ∀ first second third : Value,
        first.isFloat = false → second.isFloat = false → third.isFloat = false →
          Holds heap .less first second → Holds heap .less second third →
            Holds heap .less first third := by
  refine ⟨equalityLaws heap, fun left right noFloatLeft noFloatRight => ⟨?_, unordered⟩, ?_⟩
  · intro comparable
    obtain ⟨ordering, ordered⟩ := comparable.exists_ordered noFloatLeft noFloatRight
    exact ordered.orderLaws
  · exact fun _ _ _ => less_trans

/-- Truth values among numbers, and a truth value against a text. -/
theorem comparisons_coherent_of_truth :
    Holds .empty .less (.bool false) (.bool true) ∧
      Holds .empty .less (.bool true) (.int 2) ∧
      Holds .empty .less (.bool false) (.int 2) ∧
      OrderLaws .empty (.bool true) (.int 1) ∧
      Unordered .empty (.bool true) (.text "1") := by
  obtain ⟨-, laws, trans⟩ := comparisons_coherent .empty
  have lower : Holds .empty .less (.bool false) (.bool true) := rfl
  have upper : Holds .empty .less (.bool true) (.int 2) := rfl
  have apart : ¬ Comparable (.bool true) (.text "1") := by
    rintro (⟨-, impossible⟩ | ⟨impossible, -⟩) <;> contradiction
  exact ⟨lower, upper, trans _ _ _ rfl rfl rfl lower upper,
    (laws _ _ rfl rfl).1 (.inl ⟨rfl, rfl⟩), (laws _ _ rfl rfl).2 apart⟩

end Value

end LedSketch.Script
