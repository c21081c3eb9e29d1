import LedSketch.Proofs.Machine.Steady
import LedSketch.Proofs.Native.PixelColors
import LedSketch.Proofs.Number.Numerals
import Mathlib.Data.Int.ModEq

namespace LedSketch.Native

/-!
# Printed integers

A format prints an integer in base ten with its sign, or its low 32 bits in another base.
There is only one text for each, and it tells the integer, or the low bits of it.
-/

open Radix (Spells SpellsSigned)
open Script

/--
Whether a text shows a number in a format: in base ten with the sign for ten and for formats
below two, and else the low 32 bits in the base of the format, or in base 36 for larger ones.
-/
def Shows
    (format number : Int64)
    (text : String) :
    Prop :=
  if format < 2 ∨ format = 10 then
    SpellsSigned text.toList number.toInt
  else
    Spells (min format.toInt 36).toNat text.toList (number.toInt % 2 ^ 32).toNat

section Shows

variable {format number other : Int64} {text written : String}

theorem shows_of_decimal (decimal : format < 2 ∨ format = 10) :
    Shows format number text ↔ SpellsSigned text.toList number.toInt :=
  iff_of_eq (if_pos decimal)

theorem shows_of_not_decimal (notDecimal : ¬ (format < 2 ∨ format = 10)) :
    Shows format number text ↔
      Spells (min format.toInt 36).toNat text.toList (number.toInt % 2 ^ 32).toNat :=
  iff_of_eq (if_neg notDecimal)

theorem base_bounds (notDecimal : ¬ (format < 2 ∨ format = 10)) :
    2 ≤ (min format.toInt 36).toNat ∧ (min format.toInt 36).toNat ≤ 36 := by
  have notSmall : ¬ format < 2 := fun small => notDecimal (.inl small)
  have two_le : 2 ≤ format.toInt := Int64.le_iff_toInt_le.mp (Int64.not_lt.mp notSmall)
  omega

theorem shows_intText (format number : Int64) : Shows format number (intText number format) := by
  unfold intText
  simp only [Bool.or_eq_true, decide_eq_true_eq]
  by_cases decimal : format < 2 ∨ format = 10
  · rw [if_pos decimal, shows_of_decimal decimal]
    exact .toList_toString number.toInt
  · obtain ⟨two_le, atMost⟩ := base_bounds decimal
    have lowBits : number.toUInt64.toUInt32.toNat = (number.toInt % 2 ^ 32).toNat := by
      have bits := toNat_lowBits number
      omega
    rw [if_neg decimal, shows_of_not_decimal decimal, lowBits]
    exact Radix.spells_text two_le atMost _

/-- A format has only one text for a number. -/
theorem Shows.unique
    (shows : Shows format number text)
    (showsToo : Shows format number written) :
    text = written := by
  apply String.toList_inj.mp
  by_cases decimal : format < 2 ∨ format = 10
  · rw [shows_of_decimal decimal] at shows showsToo
    exact shows.unique showsToo
  · rw [shows_of_not_decimal decimal] at shows showsToo
    exact shows.unique showsToo (base_bounds decimal).1

/-- Numbers with the same text are the same, or in another base than ten congruent. -/
theorem Shows.shows_iff (shows : Shows format number text) :
    Shows format other text ↔
      if format < 2 ∨ format = 10 then
        other = number
      else
        other.toInt ≡ number.toInt [ZMOD 2 ^ 32] := by
  by_cases decimal : format < 2 ∨ format = 10
  · rw [shows_of_decimal decimal] at shows ⊢
    rw [if_pos decimal]
    constructor
    · intro showsToo
      exact Int64.toInt_inj.mp (showsToo.injective shows)
    · rintro rfl
      exact shows
  · rw [shows_of_not_decimal decimal] at shows ⊢
    rw [if_neg decimal]
    constructor
    · intro showsToo
      have sameValue := showsToo.value.symm.trans shows.value
      unfold Int.ModEq
      omega
    · intro congruent
      rw [congruent]
      exact shows

end Shows

/-- An integer and a format are printed as the text of the integer in the format. -/
theorem runIn_serialText
    {value given : Value}
    {number format : Int64}
    (isInt : value.numeric? = some (.int number))
    (isFormat : given.toInt64 = .ok format)
    (others : List Value)
    (world : World) :
    runIn world (serialText (value :: given :: others)) = (.ok (intText number format), world) := by
  cases value with
  | int _ | bool _ =>
      cases isInt
      simp only [serialText, isFormat, ofType, pure_bind, runIn_pure]
  | _ => cases isInt

/--
A call that prints an integer in a format prints, if the run is the current one, the only text
that shows the integer in that format: its signed spelling in base ten, or the numeral of its
remainder by `2 ^ 32` in another base up to 36.
-/
theorem integers_printed_as_numerals
    {value given : Value}
    {number format : Int64}
    (isInt : value.numeric? = some (.int number))
    (isFormat : given.toInt64 = .ok format)
    (others : List Value) :
    ∃ text,
      (∀ world,
        runIn world (callMethod .serial "print" (value :: given :: others)) =
          if world.host.live then (.ok .undefined, world.print ⟨text, false⟩)
          else (.error .superseded, world)) ∧
      (∀ world,
        runIn world (callMethod .serial "println" (value :: given :: others)) =
          if world.host.live then (.ok .undefined, world.print ⟨text, true⟩)
          else (.error .superseded, world)) ∧
      (∀ written, Shows format number written ↔ written = text) ∧
      ∀ other, Shows format other text ↔
        if format < 2 ∨ format = 10 then
          other = number
        else
          other.toInt ≡ number.toInt [ZMOD 2 ^ 32] := by
  have shows := shows_intText format number
  refine ⟨intText number format, ?_, ?_, ?_, fun other => shows.shows_iff⟩
  · intro world
    rw [callMethod, runIn_callSerial_print, runIn_serialText isInt isFormat]
    rfl
  · intro world
    rw [callMethod, runIn_callSerial_println, runIn_serialText isInt isFormat]
    rfl
  · intro written
    constructor
    · intro showsToo
      exact showsToo.unique shows
    · rintro rfl
      exact shows

/-- Minus one in a format above 36, and a format that is a truth value. -/
theorem integers_printed_as_numerals_of_negative :
    ((Value.int (-1)).numeric? = some (.int (-1)) ∧ (Value.int 99).toInt64 = .ok 99) ∧
      (∀ world,
        runIn world (callMethod .serial "print" [.int (-1), .int 99]) =
          if world.host.live then (.ok .undefined, world.print ⟨"1Z141Z3", false⟩)
          else (.error .superseded, world)) ∧
      (∀ other : Int64, Shows 99 other "1Z141Z3" ↔ other.toInt ≡ -1 [ZMOD 2 ^ 32]) ∧
      ((Value.int (-42)).numeric? = some (.int (-42)) ∧ (Value.bool true).toInt64 = .ok 1) ∧
      ∀ world,
        runIn world (callMethod .serial "println" [.int (-42), .bool true]) =
          if world.host.live then (.ok .undefined, world.print ⟨"-42", true⟩)
          else (.error .superseded, world) := by
  have numeral : Shows 99 (-1) "1Z141Z3" :=
    (shows_of_not_decimal (by decide)).mpr (by decide +kernel)
  have decimal : Shows 1 (-42) "-42" :=
    (shows_of_decimal (by decide)).mpr ⟨['4', '2'], by decide +kernel, by decide +kernel⟩
  obtain ⟨first, prints, -, isFirst, others⟩ :=
    @integers_printed_as_numerals (.int (-1)) (.int 99) (-1) 99 rfl rfl []
  obtain ⟨second, -, printsLine, isSecond, -⟩ :=
    @integers_printed_as_numerals (.int (-42)) (.bool true) (-42) 1 rfl rfl []
  obtain rfl := (isFirst _).mp numeral
  obtain rfl := (isSecond _).mp decimal
  exact ⟨⟨rfl, rfl⟩, prints, others, ⟨rfl, rfl⟩, printsLine⟩

end LedSketch.Native
