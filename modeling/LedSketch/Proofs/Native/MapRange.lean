import LedSketch.Proofs.Native.Call
import LedSketch.Proofs.Script.Casts

namespace LedSketch.Native

/-!
# Numbers carried to another range

As long as nothing leaves the word, `map` on integers is the linear interpolation between
the ends of its ranges, cut off toward zero.  Where something does, it still answers with an
integer, unless the range to map from is empty.
-/

open Script

/-- A call of `map` with five integers. -/
def mapInts (x fromLow fromHigh toLow toHigh : Int64) : Native Response :=
  callBuiltin .map [.int x, .int fromLow, .int fromHigh, .int toLow, .int toHigh]

/-- The interpolation of a number between the ends of two ranges, cut off toward zero. -/
def interpolate (x fromLow fromHigh toLow toHigh : Int) : Int :=
  toLow + ((x - fromLow) * (toHigh - toLow)).tdiv (fromHigh - fromLow)

/-- Numbers whose interpolation stays within a word all along, but for the quotient. -/
structure Fits (x fromLow fromHigh toLow toHigh : Int) : Prop where
  offset : Width.bits64.Holds true (x - fromLow)
  span : Width.bits64.Holds true (fromHigh - fromLow)
  width : Width.bits64.Holds true (toHigh - toLow)
  product : Width.bits64.Holds true ((x - fromLow) * (toHigh - toLow))
  sum : Width.bits64.Holds true (interpolate x fromLow fromHigh toLow toHigh)

instance (x fromLow fromHigh toLow toHigh : Int) :
    Decidable (Fits x fromLow fromHigh toLow toHigh) :=
  decidable_of_iff
    (Width.bits64.Holds true (x - fromLow) ∧
      Width.bits64.Holds true (fromHigh - fromLow) ∧
      Width.bits64.Holds true (toHigh - toLow) ∧
      Width.bits64.Holds true ((x - fromLow) * (toHigh - toLow)) ∧
      Width.bits64.Holds true (interpolate x fromLow fromHigh toLow toHigh))
    ⟨fun ⟨offset, span, width, product, sum⟩ => ⟨offset, span, width, product, sum⟩,
      fun ⟨offset, span, width, product, sum⟩ => ⟨offset, span, width, product, sum⟩⟩

section Interpolation

variable {x y fromLow fromHigh toLow toHigh : Int}

theorem interpolate_low (toLow : Int) :
    interpolate fromLow fromLow fromHigh toLow toHigh = toLow := by
  simp [interpolate]

theorem interpolate_high (different : fromLow ≠ fromHigh) :
    interpolate fromHigh fromLow fromHigh toLow toHigh = toHigh := by
  have notEmpty : fromHigh - fromLow ≠ 0 := by omega
  unfold interpolate
  rw [Int.mul_tdiv_cancel_left _ notEmpty]
  omega

/-- Between ranges that do not fall, a greater number is not carried to a smaller one. -/
theorem interpolate_le
    (rises : fromLow < fromHigh)
    (ordered : toLow ≤ toHigh)
    (atMost : x ≤ y) :
    interpolate x fromLow fromHigh toLow toHigh ≤
      interpolate y fromLow fromHigh toLow toHigh := by
  have products : (x - fromLow) * (toHigh - toLow) ≤ (y - fromLow) * (toHigh - toLow) :=
    Int.mul_le_mul_of_nonneg_right (by omega) (by omega)
  have positive : 0 < fromHigh - fromLow := by omega
  exact Int.add_le_add_left (Int.tdiv_le_tdiv positive products) toLow

/-- A number of the range to map from is carried into the other range. -/
theorem interpolate_within
    (rises : fromLow < fromHigh)
    (ordered : toLow ≤ toHigh)
    (low : fromLow ≤ x)
    (high : x ≤ fromHigh) :
    toLow ≤ interpolate x fromLow fromHigh toLow toHigh ∧
      interpolate x fromLow fromHigh toLow toHigh ≤ toHigh := by
  have above := interpolate_le rises ordered low
  have below := interpolate_le rises ordered high
  rw [interpolate_low] at above
  rw [interpolate_high rises.ne] at below
  exact ⟨above, below⟩

end Interpolation

section Words

variable {x y fromLow fromHigh toLow toHigh : Int64}

/-- A number that a word holds is its own remainder. -/
theorem bmod_eq_of_holds
    {number : Int}
    (holds : Width.bits64.Holds true number) :
    number.bmod (2 ^ 64) = number := by
  obtain ⟨lower, upper⟩ : -2 ^ 63 ≤ number ∧ number < 2 ^ 63 := holds
  exact Int.bmod_eq_of_le (by omega) (by omega)

/-- The words of two ends differ by zero only if they are the same. -/
theorem sub_eq_zero_iff : fromHigh - fromLow = 0 ↔ fromLow = fromHigh := by
  constructor
  · intro empty
    rw [← Int64.sub_add_cancel fromHigh fromLow, empty, Int64.zero_add]
  · intro same
    rw [same, Int64.sub_self]

/-- What `map` does with integers, whatever they are. -/
theorem runIn_mapInts
    (world : World)
    (x fromLow fromHigh toLow toHigh : Int64) :
    runIn world (mapInts x fromLow fromHigh toLow toHigh) =
      if fromHigh - fromLow = 0 then
        (.error (.type .emptyRange), world)
      else
        (.ok (.value (.int
          ((x - fromLow) * (toHigh - toLow) / (fromHigh - fromLow) + toLow))), world) := by
  have computed :
      mapRange [.int x, .int fromLow, .int fromHigh, .int toLow, .int toHigh] =
        if fromHigh - fromLow = 0 then
          .error .emptyRange
        else
          .ok (.int ((x - fromLow) * (toHigh - toLow) / (fromHigh - fromLow) + toLow)) := rfl
  have called :
      runIn world (mapInts x fromLow fromHigh toLow toHigh) =
        runIn world
          (ofType (mapRange [.int x, .int fromLow, .int fromHigh, .int toLow, .int toHigh]) >>=
            fun found => pure (.value found)) := rfl
  rw [called, computed]
  split <;> rfl

/-- The wrapped arithmetic of `map` is exact as long as nothing leaves the word. -/
theorem Fits.toInt_eq
    (fits : Fits x.toInt fromLow.toInt fromHigh.toInt toLow.toInt toHigh.toInt) :
    ((x - fromLow) * (toHigh - toLow) / (fromHigh - fromLow) + toLow).toInt =
      interpolate x.toInt fromLow.toInt fromHigh.toInt toLow.toInt toHigh.toInt := by
  have offset : (x - fromLow).toInt = x.toInt - fromLow.toInt := by
    rw [Int64.toInt_sub, bmod_eq_of_holds fits.offset]
  have span : (fromHigh - fromLow).toInt = fromHigh.toInt - fromLow.toInt := by
    rw [Int64.toInt_sub, bmod_eq_of_holds fits.span]
  have width : (toHigh - toLow).toInt = toHigh.toInt - toLow.toInt := by
    rw [Int64.toInt_sub, bmod_eq_of_holds fits.width]
  have product :
      ((x - fromLow) * (toHigh - toLow)).toInt =
        (x.toInt - fromLow.toInt) * (toHigh.toInt - toLow.toInt) := by
    rw [Int64.toInt_mul, offset, width, bmod_eq_of_holds fits.product]
  -- The quotient alone may leave the word, by the least number and minus one.
  rw [Int64.toInt_add, Int64.toInt_div, product, span, Int.bmod_add_bmod, Int.add_comm]
  exact bmod_eq_of_holds fits.sum

end Words

/-- Integers that `map` gives an integer for, and leaves the world as it is. -/
def Maps (x fromLow fromHigh toLow toHigh result : Int64) : Prop :=
  ∀ world, runIn world (mapInts x fromLow fromHigh toLow toHigh) =
    (.ok (.value (.int result)), world)

/-- A call of `map` from a range that is not empty, with only the quotient out of the word. -/
structure IsExact (x fromLow fromHigh toLow toHigh : Int64) : Prop where
  different : fromLow ≠ fromHigh
  fits : Fits x.toInt fromLow.toInt fromHigh.toInt toLow.toInt toHigh.toInt

section Maps

variable {x y fromLow fromHigh toLow toHigh result : Int64}

theorem maps_of_ne
    (different : fromLow ≠ fromHigh)
    (x toLow toHigh : Int64) :
    Maps x fromLow fromHigh toLow toHigh
      ((x - fromLow) * (toHigh - toLow) / (fromHigh - fromLow) + toLow) := by
  intro world
  rw [runIn_mapInts, if_neg (different ∘ sub_eq_zero_iff.mp)]

/-- An exact call of `map` gives the interpolation. -/
theorem IsExact.exists_maps (exact : IsExact x fromLow fromHigh toLow toHigh) :
    ∃ result, Maps x fromLow fromHigh toLow toHigh result ∧
      result.toInt = interpolate x.toInt fromLow.toInt fromHigh.toInt toLow.toInt toHigh.toInt :=
  ⟨_, maps_of_ne exact.different x toLow toHigh, exact.fits.toInt_eq⟩

/-- An exact call of `map` gives the word that the interpolation is the number of. -/
theorem IsExact.maps
    (exact : IsExact x fromLow fromHigh toLow toHigh)
    (isNumber :
      interpolate x.toInt fromLow.toInt fromHigh.toInt toLow.toInt toHigh.toInt =
        result.toInt) :
    Maps x fromLow fromHigh toLow toHigh result := by
  obtain ⟨found, maps, same⟩ := exact.exists_maps
  rw [isNumber] at same
  rwa [← Int64.toInt_inj.mp same]

end Maps

/--
What `map` does with integers.  If nothing but the quotient leaves the word, it interpolates
between the ends of the ranges, cut off toward zero: it carries the ends to the ends, and
between ranges that rise it keeps the order and stays within the range to map to.  Whatever
the integers are, it divides only by a span that is not zero, and it fails exactly where the
span wraps to zero.
-/
theorem map_interpolates
    (x fromLow fromHigh toLow toHigh : Int64) :
    (IsExact x fromLow fromHigh toLow toHigh →
      ∃ result, Maps x fromLow fromHigh toLow toHigh result ∧
        result.toInt =
          toLow.toInt +
            ((x.toInt - fromLow.toInt) * (toHigh.toInt - toLow.toInt)).tdiv
              (fromHigh.toInt - fromLow.toInt)) ∧
      (IsExact fromLow fromLow fromHigh toLow toHigh →
        Maps fromLow fromLow fromHigh toLow toHigh toLow) ∧
      (IsExact fromHigh fromLow fromHigh toLow toHigh →
        Maps fromHigh fromLow fromHigh toLow toHigh toHigh) ∧
      (fromLow < fromHigh → toLow ≤ toHigh → IsExact x fromLow fromHigh toLow toHigh →
        (∀ y, IsExact y fromLow fromHigh toLow toHigh → x ≤ y →
          ∃ first second, Maps x fromLow fromHigh toLow toHigh first ∧
            Maps y fromLow fromHigh toLow toHigh second ∧ first ≤ second) ∧
          (fromLow ≤ x → x ≤ fromHigh →
            ∃ result, Maps x fromLow fromHigh toLow toHigh result ∧
              toLow ≤ result ∧ result ≤ toHigh)) ∧
      ∀ world,
        (runIn world (mapInts x fromLow fromHigh toLow toHigh) =
            (.error (.type .emptyRange), world) ↔
          fromHigh - fromLow = 0) ∧
          (fromHigh - fromLow ≠ 0 →
            runIn world (mapInts x fromLow fromHigh toLow toHigh) =
              (.ok (.value (.int
                ((x - fromLow) * (toHigh - toLow) / (fromHigh - fromLow) + toLow))), world)) := by
  refine ⟨fun exact => exact.exists_maps, ?_, ?_, ?_, ?_⟩
  · intro exact
    exact exact.maps (interpolate_low _)
  · intro exact
    exact exact.maps (interpolate_high (exact.different ∘ Int64.toInt_inj.mp))
  · intro rises ordered exact
    have rises := Int64.lt_iff_toInt_lt.mp rises
    have ordered := Int64.le_iff_toInt_le.mp ordered
    obtain ⟨first, mapsFirst, isFirst⟩ := exact.exists_maps
    constructor
    · intro y exactSecond atMost
      obtain ⟨second, mapsSecond, isSecond⟩ := exactSecond.exists_maps
      refine ⟨first, second, mapsFirst, mapsSecond, Int64.le_iff_toInt_le.mpr ?_⟩
      rw [isFirst, isSecond]
      exact interpolate_le rises ordered (Int64.le_iff_toInt_le.mp atMost)
    · intro low high
      obtain ⟨above, below⟩ :=
        interpolate_within rises ordered (Int64.le_iff_toInt_le.mp low)
          (Int64.le_iff_toInt_le.mp high)
      rw [← isFirst] at above below
      exact ⟨first, mapsFirst, Int64.le_iff_toInt_le.mpr above, Int64.le_iff_toInt_le.mpr below⟩
  · intro world
    rw [runIn_mapInts]
    by_cases empty : fromHigh - fromLow = 0
    · simp [empty]
    · simp [empty]

/-- A reading of a sensor, its least and its greatest value, and a quotient out of the word. -/
theorem map_interpolates_of_reading :
    Maps 512 0 1023 0 255 127 ∧
      Maps 0 0 1023 0 255 0 ∧
      Maps 1023 0 1023 0 255 255 ∧
      (∃ first second, Maps 512 0 1023 0 255 first ∧ Maps 700 0 1023 0 255 second ∧
        first ≤ second) ∧
      (∃ result, Maps 512 0 1023 0 255 result ∧ 0 ≤ result ∧ result ≤ 255) ∧
      Maps Int64.minValue 0 (-1) (-1) 0 Int64.maxValue ∧
      ∀ world, runIn world (mapInts 5 3 3 0 10) = (.error (.type .emptyRange), world) := by
  obtain ⟨exact, low, high, between, _⟩ := map_interpolates 512 0 1023 0 255
  obtain ⟨result, maps, isResult⟩ := exact ⟨by decide, by decide⟩
  have isReading : result = 127 := Int64.toInt_inj.mp isResult
  obtain ⟨ordered, within⟩ := between (by decide) (by decide) ⟨by decide, by decide⟩
  obtain ⟨quotient, mapsLeast, isQuotient⟩ :=
    (map_interpolates Int64.minValue 0 (-1) (-1) 0).1 ⟨by decide, by decide⟩
  have isGreatest : quotient = Int64.maxValue := Int64.toInt_inj.mp isQuotient
  rw [isReading] at maps
  rw [isGreatest] at mapsLeast
  exact ⟨maps, low ⟨by decide, by decide⟩, high ⟨by decide, by decide⟩,
    ordered 700 ⟨by decide, by decide⟩ (by decide), within (by decide) (by decide), mapsLeast,
    fun world => ((map_interpolates 5 3 3 0 10).2.2.2.2 world).1.mpr (by decide)⟩

end LedSketch.Native
