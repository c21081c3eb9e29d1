import LedSketch.Number.Radix
import LedSketch.Script.Tokenizer
import Mathlib.Data.List.Basic
import Mathlib.Data.List.Induction
import Mathlib.Data.Nat.Digits.Defs

namespace LedSketch.Radix

/-!
# Numerals

A numeral is not empty and has no leading zero, unless it is the zero.  A number has exactly
one numeral in each base from 2 to 36.  The loop that writes a number from its last digit on
finds it, and an integer in base ten is written as its numeral with a sign.
-/

open Script.Lexeme (digitValue valueIn)

/-- A digit of a base: one of `0` to `9` or a capital letter, of a value below the base. -/
structure IsDigit
    (base : Nat)
    (c : Char) :
    Prop where
  plain : c.isDigit = true ∨ c.isUpper = true
  below : digitValue c < base

/-- Digits that spell a number in a base, without a leading zero unless they are the zero. -/
structure Spells
    (base : Nat)
    (digits : List Char)
    (number : Nat) :
    Prop where
  notEmpty : digits ≠ []
  isDigit : ∀ c ∈ digits, IsDigit base c
  noLeadingZero : digits.head? = some '0' → digits = ['0']
  value : valueIn base digits = number

/-- Digits in base ten that spell the amount of a number, behind a minus if it is negative. -/
def SpellsSigned
    (text : List Char)
    (number : Int) :
    Prop :=
  ∃ digits, Spells 10 digits number.natAbs ∧
    text = if number < 0 then '-' :: digits else digits

instance
    (base : Nat)
    (c : Char) :
    Decidable (IsDigit base c) :=
  decidable_of_iff ((c.isDigit = true ∨ c.isUpper = true) ∧ digitValue c < base)
    ⟨fun ⟨plain, below⟩ => ⟨plain, below⟩, fun ⟨plain, below⟩ => ⟨plain, below⟩⟩

instance
    (base : Nat)
    (digits : List Char)
    (number : Nat) :
    Decidable (Spells base digits number) :=
  -- `∀ c ∈ digits` could also be decided by trying every character there is.
  decidable_of_iff
    (digits ≠ [] ∧ digits.all (fun c => decide (IsDigit base c)) = true ∧
      (digits.head? = some '0' → digits = ['0']) ∧ valueIn base digits = number)
    ⟨fun ⟨notEmpty, all, noLeadingZero, value⟩ =>
        ⟨notEmpty, fun c member => of_decide_eq_true (List.all_eq_true.mp all c member),
          noLeadingZero, value⟩,
      fun ⟨notEmpty, isDigit, noLeadingZero, value⟩ =>
        ⟨notEmpty, List.all_eq_true.mpr fun c member => decide_eq_true (isDigit c member),
          noLeadingZero, value⟩⟩

section Digits

variable {base value : Nat} {c : Char}

theorem digitValue_digit (below : value < 36) : digitValue (digit value) = value := by
  have all : ∀ value < 36, digitValue (digit value) = value := by decide
  exact all value below

theorem isDigit_digit
    (below : value < base)
    (atMost : base ≤ 36) :
    IsDigit base (digit value) := by
  have all : ∀ value < 36,
      (digit value).isDigit = true ∨ (digit value).isUpper = true := by decide
  have inTable : value < 36 := by omega
  exact ⟨all value inTable, (digitValue_digit inTable).symm ▸ below⟩

/-- A digit is known by its value. -/
theorem IsDigit.digit_digitValue (isDigit : IsDigit base c) : digit (digitValue c) = c := by
  have all : ∀ code < 128,
      (Char.ofNat code).isDigit = true ∨ (Char.ofNat code).isUpper = true →
        digit (digitValue (Char.ofNat code)) = Char.ofNat code := by
    decide
  have inTable : c.toNat < 128 := by
    rcases isDigit.plain with decimal | capital
    · have range : 48 ≤ c.toNat ∧ c.toNat ≤ 57 := Char.isDigit_iff_toNat.mp decimal
      omega
    · have range : 65 ≤ c.toNat ∧ c.toNat ≤ 90 := of_decide_eq_true capital
      omega
  have known := all c.toNat inTable
  rw [Char.ofNat_toNat] at known
  exact known isDigit.plain

end Digits

theorem valueIn_zero (base : Nat) : valueIn base ['0'] = 0 := by
  change 0 * base + 0 = 0
  rw [Nat.zero_mul]

theorem valueIn_concat
    (base : Nat)
    (digits : List Char)
    (c : Char) :
    valueIn base (digits ++ [c]) = valueIn base digits * base + digitValue c :=
  List.foldl_append

/-- The value of digits is that of the list of their values, the last one first. -/
theorem ofDigits_values
    (base : Nat)
    (digits : List Char) :
    Nat.ofDigits base (digits.map digitValue).reverse = valueIn base digits := by
  induction digits using List.reverseRecOn with
  | nil => rfl
  | append_singleton digits c inductionHypothesis =>
      rw [List.map_append, List.map_singleton, List.reverse_concat, Nat.ofDigits_cons,
        inductionHypothesis, valueIn_concat, Nat.mul_comm base, Nat.add_comm]

namespace Spells

variable {base number last : Nat} {digits others : List Char}

theorem single
    (below : number < base)
    (atMost : base ≤ 36) :
    Spells base [digit number] number where
  notEmpty := List.cons_ne_nil _ _
  isDigit c member := List.mem_singleton.mp member ▸ isDigit_digit below atMost
  noLeadingZero isZero := by
    rw [Option.some_inj.mp isZero]
  value := by
    have value := digitValue_digit (show number < 36 by omega)
    simp [valueIn, value]

/-- A numeral other than the zero goes on with any digit. -/
theorem concat
    (spells : Spells base digits number)
    (positive : 0 < number)
    (below : last < base)
    (atMost : base ≤ 36) :
    Spells base (digits ++ [digit last]) (number * base + last) where
  notEmpty := List.append_ne_nil_of_right_ne_nil _ (List.cons_ne_nil _ _)
  isDigit c member := by
    rcases List.mem_append.mp member with earlier | isLast
    · exact spells.isDigit c earlier
    · exact List.mem_singleton.mp isLast ▸ isDigit_digit below atMost
  noLeadingZero isZero := by
    rw [List.head?_append_of_ne_nil _ spells.notEmpty] at isZero
    have value := spells.value
    rw [spells.noLeadingZero isZero, valueIn_zero] at value
    exact absurd value positive.ne
  value := by
    rw [valueIn_concat, spells.value, digitValue_digit (by omega)]

/-- A numeral other than the zero is that of the digits that its number has. -/
theorem eq_map_digits
    (spells : Spells base digits number)
    (two_le : 2 ≤ base)
    (notZero : digits ≠ ['0']) :
    digits = (Nat.digits base number).reverse.map digit := by
  have known : (digits.map digitValue).map digit = digits := by
    rw [List.map_map]
    exact (List.map_congr_left fun c member =>
      (spells.isDigit c member).digit_digitValue).trans (List.map_id digits)
  have values : Nat.digits base number = (digits.map digitValue).reverse := by
    rw [← spells.value, ← ofDigits_values]
    refine Nat.digits_ofDigits base two_le _ ?_ ?_
    · intro value member
      obtain ⟨c, inDigits, rfl⟩ := List.mem_map.mp (List.mem_reverse.mp member)
      exact (spells.isDigit c inDigits).below
    · obtain ⟨first, more, rfl⟩ := List.exists_cons_of_ne_nil spells.notEmpty
      intro _ isZero
      have noValue : digitValue first = 0 := by simpa using isZero
      have isFirst := (spells.isDigit first List.mem_cons_self).digit_digitValue
      rw [noValue] at isFirst
      exact notZero (spells.noLeadingZero (congrArg some isFirst.symm))
  rw [values, List.reverse_reverse, known]

/-- Nothing but the zero spells zero. -/
theorem eq_zero_iff
    (spells : Spells base digits number)
    (two_le : 2 ≤ base) :
    digits = ['0'] ↔ number = 0 := by
  constructor
  · intro isZero
    rw [← spells.value, isZero, valueIn_zero]
  · intro isZero
    by_contra notZero
    have noDigits := spells.eq_map_digits two_le notZero
    rw [isZero, Nat.digits_zero] at noDigits
    exact spells.notEmpty noDigits

/-- A number has no two numerals in a base. -/
theorem unique
    (spells : Spells base digits number)
    (spellsToo : Spells base others number)
    (two_le : 2 ≤ base) :
    digits = others := by
  by_cases isZero : number = 0
  · rw [(spells.eq_zero_iff two_le).mpr isZero, (spellsToo.eq_zero_iff two_le).mpr isZero]
  · rw [spells.eq_map_digits two_le (isZero ∘ (spells.eq_zero_iff two_le).mp),
      spellsToo.eq_map_digits two_le (isZero ∘ (spellsToo.eq_zero_iff two_le).mp)]

/-- A minus is no digit. -/
theorem no_minus (spells : Spells base digits number) : '-' ∉ digits := by
  intro member
  have plain := (spells.isDigit '-' member).plain
  revert plain
  decide

end Spells

section Written

variable {base : Nat}

/-- Each quotient of the loop is spelled by the digits in front of those already written. -/
theorem exists_spells_digitsBefore
    (two_le : 2 ≤ base)
    (atMost : base ≤ 36)
    (tail : List Char)
    (number : Nat) :
    ∃ digits, digitsBefore base tail number = digits ++ tail ∧ Spells base digits number := by
  have below : number % base < base := Nat.mod_lt number (by omega)
  fun_induction digitsBefore base tail number with
  | case1 tail number more inductionHypothesis =>
      -- The quotient is positive, so no zero comes to stand in front of this digit.
      obtain ⟨digits, written, spells⟩ := inductionHypothesis (Nat.mod_lt _ (by omega))
      have longer := spells.concat more.1 below atMost
      rw [Nat.div_add_mod'] at longer
      exact ⟨_, written.trans (List.append_cons _ _ _), longer⟩
  | case2 tail number last =>
      have isDigit : number < base := by
        by_contra atLeast
        exact last ⟨Nat.div_pos (by omega) (by omega), Nat.div_lt_self (by omega) two_le⟩
      rw [Nat.mod_eq_of_lt isDigit]
      exact ⟨_, rfl, .single isDigit atMost⟩

/-- The text of a number in a base is its numeral. -/
theorem spells_text
    (two_le : 2 ≤ base)
    (atMost : base ≤ 36)
    (number : Nat) :
    Spells base (text base number).toList number := by
  obtain ⟨digits, written, spells⟩ := exists_spells_digitsBefore two_le atMost [] number
  rw [text, String.toList_ofList, written, List.append_nil]
  exact spells

/-- In base ten a natural number is written as its numeral. -/
theorem spells_toDigits (number : Nat) : Spells 10 (Nat.toDigits 10 number) number := by
  have same : ∀ value < 10, Nat.digitChar value = digit value := by decide
  induction number using Nat.strongRecOn with
  | ind number inductionHypothesis =>
      rw [Nat.toDigits_eq_if (by decide)]
      split
      · next isDigit =>
          rw [same number isDigit]
          exact .single isDigit (by decide)
      · next more =>
          have below : number % 10 < 10 := Nat.mod_lt number (by decide)
          have front := inductionHypothesis (number / 10) (by omega)
          have longer := front.concat (by omega) below (by decide)
          rw [Nat.div_add_mod'] at longer
          rwa [same _ below]

end Written

namespace SpellsSigned

variable {number other : Int} {text written : List Char}

/-- An integer is written as its signed spelling in base ten. -/
theorem toList_toString (number : Int) : SpellsSigned (toString number).toList number := by
  have written (amount : Nat) : amount.repr.toList = Nat.toDigits 10 amount := by
    rw [Nat.repr_eq_ofList_toDigits, String.toList_ofList]
  refine ⟨_, spells_toDigits number.natAbs, ?_⟩
  rw [Int.toString_eq_repr, Int.repr_eq_if]
  by_cases negative : number < 0
  · have amount : (-number).toNat = number.natAbs := by omega
    rw [if_neg (by omega), if_pos negative, String.toList_append, written, amount]
    rfl
  · have amount : number.toNat = number.natAbs := by omega
    rw [if_pos (by omega), if_neg negative, written, amount]

/-- An integer has no two signed spellings in base ten. -/
theorem unique
    (spells : SpellsSigned text number)
    (spellsToo : SpellsSigned written number) :
    text = written := by
  obtain ⟨digits, amount, rfl⟩ := spells
  obtain ⟨others, amountToo, rfl⟩ := spellsToo
  rw [amount.unique amountToo (by decide)]

/-- A signed spelling is that of one integer only. -/
theorem injective
    (spells : SpellsSigned text number)
    (spellsToo : SpellsSigned text other) :
    number = other := by
  obtain ⟨digits, amount, rfl⟩ := spells
  obtain ⟨others, amountToo, same⟩ := spellsToo
  have sameAmount (sameDigits : digits = others) : number.natAbs = other.natAbs := by
    rw [← amount.value, ← amountToo.value, sameDigits]
  by_cases negative : number < 0
  · rw [if_pos negative] at same
    split at same
    · next negativeToo =>
        have amounts := sameAmount (List.cons.inj same).2
        omega
    · exact absurd (same ▸ List.mem_cons_self) amountToo.no_minus
  · rw [if_neg negative] at same
    split at same
    · exact absurd (same ▸ List.mem_cons_self) amount.no_minus
    · next notNegativeToo =>
        have amounts := sameAmount same
        omega

end SpellsSigned

end LedSketch.Radix
