import LedSketch.Script.Operation
import Mathlib.Data.Int.ModEq

namespace LedSketch.Script

/-!
# Casts to integers

A cast to an integer type gives the number of that type which is congruent to the operand.
There is only one, so casts agree wherever their operands are congruent.
-/

/-- The numbers that a type of some width has, with or without a sign. -/
def Width.Holds
    (width : Width)
    (signed : Bool)
    (number : Int) :
    Prop :=
  if signed then
    -2 ^ (width.bits - 1) ≤ number ∧ number < 2 ^ (width.bits - 1)
  else
    0 ≤ number ∧ number < 2 ^ width.bits

instance
    (width : Width)
    (signed : Bool)
    (number : Int) :
    Decidable (width.Holds signed number) :=
  inferInstanceAs
    (Decidable
      (if signed then
        -2 ^ (width.bits - 1) ≤ number ∧ number < 2 ^ (width.bits - 1)
      else
        0 ≤ number ∧ number < 2 ^ width.bits))

/-- A type has no two congruent numbers. -/
theorem Width.Holds.eq_of_congruent
    {width : Width}
    {signed : Bool}
    {first second : Int}
    (holdsFirst : width.Holds signed first)
    (holdsSecond : width.Holds signed second)
    (congruent : first ≡ second [ZMOD 2 ^ width.bits]) :
    first = second := by
  rw [Int.modEq_iff_dvd] at congruent
  cases width <;> cases signed <;>
    simp only [Holds, bits, Bool.false_eq_true, if_true, if_false] at * <;>
    omega

/-- The numbers of the narrower types fit into a word of all bits. -/
theorem Width.Holds.bounds
    {width : Width}
    {signed : Bool}
    {number : Int}
    (narrow : width ≠ .bits64)
    (holds : width.Holds signed number) :
    -2 ^ 63 ≤ number ∧ number < 2 ^ 63 := by
  cases width with
  | bits64 => contradiction
  | bits8 | bits16 | bits32 =>
      cases signed <;>
        simp only [Holds, bits, Bool.false_eq_true, if_true, if_false] at holds <;>
        omega

/-- The number of a type that a remainder stands for. -/
def Width.fold
    (width : Width)
    (signed : Bool)
    (remainder : Int) :
    Int :=
  if signed && 2 ^ width.bits ≤ 2 * remainder then
    remainder - 2 ^ width.bits
  else
    remainder

theorem Width.fold_congruent
    (width : Width)
    (signed : Bool)
    (remainder : Int) :
    width.fold signed remainder ≡ remainder [ZMOD 2 ^ width.bits] := by
  unfold fold
  split
  · exact Int.modEq_iff_dvd.mpr ⟨1, by omega⟩
  · rfl

theorem Width.holds_fold
    {width : Width}
    {signed : Bool}
    {remainder : Int}
    (lower : 0 ≤ remainder)
    (upper : remainder < 2 ^ width.bits) :
    width.Holds signed (width.fold signed remainder) := by
  have halves : (2 : Int) ^ width.bits = 2 * 2 ^ (width.bits - 1) := by
    cases width <;> rfl
  cases signed with
  | false => exact ⟨lower, upper⟩
  | true =>
      have isFold : width.fold true remainder =
          if 2 ^ width.bits ≤ 2 * remainder then remainder - 2 ^ width.bits else remainder := by
        simp only [fold, Bool.true_and, decide_eq_true_eq]
      rw [isFold]
      split
      · exact ⟨by omega, by omega⟩
      · exact ⟨by omega, by omega⟩

/-- A narrower width divides the wrapping of a wider one. -/
theorem Width.congruent_of_le
    {narrow wide : Width}
    {first second : Int}
    (within : narrow.bits ≤ wide.bits)
    (congruent : first ≡ second [ZMOD 2 ^ wide.bits]) :
    first ≡ second [ZMOD 2 ^ narrow.bits] :=
  congruent.of_dvd (pow_dvd_pow 2 within)

/-- Congruent words of all bits are the same. -/
theorem eq_of_congruent_bits64
    {first second : Int64}
    (congruent : first.toInt ≡ second.toInt [ZMOD 2 ^ Width.bits64.bits]) :
    first = second := by
  have lowerFirst := first.le_toInt
  have upperFirst := first.toInt_lt
  have lowerSecond := second.le_toInt
  have upperSecond := second.toInt_lt
  rw [Int.modEq_iff_dvd] at congruent
  simp only [Width.bits] at congruent
  exact Int64.toInt_inj.mp (by omega)

/-- What a cast to a type makes of a number. -/
structure Converts
    (width : Width)
    (signed : Bool)
    (number result : Int64) :
    Prop where
  congruent : result.toInt ≡ number.toInt [ZMOD 2 ^ width.bits]
  holds : width ≠ .bits64 → width.Holds signed result.toInt

namespace Converts

variable {width narrow wide : Width} {signed sign : Bool}
  {number other result between final : Int64}

/-- Congruent numbers are cast to the same number. -/
theorem eq_of_congruent
    (converts : Converts width signed number result)
    (convertsOther : Converts width signed other final)
    (congruent : other.toInt ≡ number.toInt [ZMOD 2 ^ width.bits]) :
    final = result := by
  have same : final.toInt ≡ result.toInt [ZMOD 2 ^ width.bits] :=
    convertsOther.congruent.trans (congruent.trans converts.congruent.symm)
  by_cases whole : width = .bits64
  · subst whole
    exact eq_of_congruent_bits64 same
  · exact Int64.toInt_inj.mp
      ((convertsOther.holds whole).eq_of_congruent (converts.holds whole) same)

/-- What is cast to a wider type first stays congruent. -/
theorem congruent_of_wide
    (converts : Converts wide sign number between)
    (within : narrow.bits ≤ wide.bits) :
    between.toInt ≡ number.toInt [ZMOD 2 ^ narrow.bits] :=
  Width.congruent_of_le within converts.congruent

end Converts

namespace Value

variable {width : Width} {signed : Bool} {number : Int64}

/-- A cast folds the remainder of a number. -/
theorem wrap_of_narrow
    (narrow : width ≠ .bits64) :
    wrap width signed number =
      Int64.ofInt (width.fold signed (number.toInt % 2 ^ width.bits)) := by
  cases width with
  | bits64 => contradiction
  | bits8 | bits16 | bits32 => exact (apply_ite Int64.ofInt _ _ _).symm

theorem converts_wrap : Converts width signed number (wrap width signed number) := by
  by_cases whole : width = .bits64
  · subst whole
    exact ⟨rfl, fun narrow => absurd rfl narrow⟩
  · have positive : (0 : Int) < 2 ^ width.bits := Int.pow_pos (by decide)
    have holds : width.Holds signed (width.fold signed (number.toInt % 2 ^ width.bits)) :=
      Width.holds_fold (Int.emod_nonneg _ positive.ne') (Int.emod_lt_of_pos _ positive)
    obtain ⟨lower, upper⟩ := holds.bounds whole
    have isFold := Int64.toInt_ofInt_of_le lower upper
    rw [← wrap_of_narrow whole] at isFold
    refine ⟨?_, fun _ => isFold ▸ holds⟩
    calc
      (wrap width signed number).toInt =
          width.fold signed (number.toInt % 2 ^ width.bits) := isFold
      _ ≡ number.toInt % 2 ^ width.bits [ZMOD 2 ^ width.bits] := width.fold_congruent signed _
      _ ≡ number.toInt [ZMOD 2 ^ width.bits] := Int.mod_modEq _ _

/-- An integer is cast as it is, and a truth value as 0 or 1. -/
theorem cast_of_int
    {operand : Value}
    (isInt : operand.numeric? = some (.int number)) :
    cast (.int width signed) operand = .ok (.int (wrap width signed number)) := by
  simp only [cast, toInt64, numeric, isInt]
  rfl

/--
A cast to an integer type gives a congruent number of the type, which is the only one below
64 bits.  So casts agree on congruent operands, and a cast to a type that is at least as wide
makes no difference to the one that follows; neither does the same cast.
-/
theorem casts_convert
    {width : Width}
    {signed : Bool}
    {operand : Value}
    {number : Int64}
    (isInt : operand.numeric? = some (.int number)) :
    ∃ result : Int64,
      cast (.int width signed) operand = .ok (.int result) ∧
        result.toInt ≡ number.toInt [ZMOD 2 ^ width.bits] ∧
        (width ≠ .bits64 →
          width.Holds signed result.toInt ∧
            ∀ other, width.Holds signed other →
              other ≡ number.toInt [ZMOD 2 ^ width.bits] → other = result.toInt) ∧
        cast (.int width signed) (.int result) = .ok (.int result) ∧
        (∀ (second : Value) (other : Int64), second.numeric? = some (.int other) →
          other.toInt ≡ number.toInt [ZMOD 2 ^ width.bits] →
            cast (.int width signed) second = .ok (.int result)) ∧
        ∀ (wide : Width) (sign : Bool), width.bits ≤ wide.bits →
          ∃ between, cast (.int wide sign) operand = .ok (.int between) ∧
            cast (.int width signed) (.int between) = .ok (.int result) := by
  have converts := @converts_wrap width signed number
  have agree {other : Int64} (congruent : other.toInt ≡ number.toInt [ZMOD 2 ^ width.bits]) :
      wrap width signed other = wrap width signed number :=
    converts.eq_of_congruent converts_wrap congruent
  refine ⟨wrap width signed number, cast_of_int isInt, converts.congruent, fun narrow => ?_, ?_,
    ?_, ?_⟩
  · exact ⟨converts.holds narrow, fun other holds congruent =>
      holds.eq_of_congruent (converts.holds narrow) (congruent.trans converts.congruent.symm)⟩
  · rw [cast_of_int rfl, agree converts.congruent]
  · intro second other isOther congruent
    rw [cast_of_int isOther, agree congruent]
  · intro wide sign within
    have between := (@converts_wrap wide sign number).congruent_of_wide within
    exact ⟨_, cast_of_int isInt, by rw [cast_of_int rfl, agree between]⟩

/-- A negative number as a byte, directly and by way of a word of 32 bits without a sign. -/
theorem casts_convert_of_negative :
    numeric? (.int (-300)) = some (.int (-300)) ∧
      cast (.int .bits8 true) (.int (-300)) = .ok (.int (-44)) ∧
        ∃ between, cast (.int .bits32 false) (.int (-300)) = .ok (.int between) ∧
          cast (.int .bits8 true) (.int between) = .ok (.int (-44)) := by
  obtain ⟨result, isCast, -, inRange, -, -, byWide⟩ :=
    @casts_convert .bits8 true (.int (-300)) (-300) rfl
  have isResult : -44 = result.toInt := (inRange nofun).2 (-44) (by decide) (by decide)
  obtain rfl : -44 = result := Int64.toInt_inj.mp isResult
  exact ⟨rfl, isCast, byWide .bits32 false (by decide)⟩

end Value

end LedSketch.Script
