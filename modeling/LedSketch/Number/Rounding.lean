namespace LedSketch.Rounding

/-!
# Rounding a quotient to a natural number

Printed decimals and computed binary fractions are both quotients of natural
numbers that have to be rounded.  The two rules differ only on an exact half.
-/

/-- Where a quotient that lies exactly between two numbers goes. -/
inductive Tie where
  /-- The even one of the two neighbours. -/
  | toEven
  /-- The larger one of the two neighbours. -/
  | up
  deriving Repr, DecidableEq

/-- The natural number nearest to `numerator / denominator`. -/
def nearest
    (tie : Tie)
    (numerator denominator : Nat) :
    Nat :=
  let quotient := numerator / denominator
  let twice := 2 * (numerator % denominator)
  if twice < denominator then
    quotient
  else if denominator < twice then
    quotient + 1
  else
    match tie with
    | .toEven => quotient + quotient % 2
    | .up => quotient + 1

/-- A quotient without remainder needs no rounding. -/
theorem nearest_mul
    (tie : Tie)
    (quotient : Nat)
    {denominator : Nat}
    (positive : 0 < denominator) :
    nearest tie (quotient * denominator) denominator = quotient := by
  simp [nearest, Nat.mul_div_cancel _ positive, positive]

/-- A quotient is rounded down or up, and each time the remainder allows it. -/
theorem nearest_cases
    (tie : Tie)
    (numerator denominator : Nat) :
    (nearest tie numerator denominator * denominator + numerator % denominator = numerator ∧
        2 * (numerator % denominator) ≤ denominator) ∨
      (nearest tie numerator denominator * denominator + numerator % denominator =
          numerator + denominator ∧
        denominator ≤ 2 * (numerator % denominator)) := by
  have down := Nat.div_add_mod' numerator denominator
  have up : (numerator / denominator + 1) * denominator + numerator % denominator =
      numerator + denominator := by
    rw [Nat.add_mul]
    omega
  unfold nearest
  dsimp only
  split
  · next less => exact .inl ⟨down, Nat.le_of_lt less⟩
  · next notLess =>
      split
      · next more => exact .inr ⟨up, Nat.le_of_lt more⟩
      · next notMore =>
          have half : 2 * (numerator % denominator) = denominator :=
            Nat.le_antisymm (Nat.le_of_not_lt notMore) (Nat.le_of_not_lt notLess)
          cases tie with
          | up => exact .inr ⟨up, Nat.le_of_eq half.symm⟩
          | toEven =>
              obtain even | odd := Nat.mod_two_eq_zero_or_one (numerator / denominator)
              · exact .inl ⟨by rw [even]; exact down, Nat.le_of_eq half⟩
              · exact .inr ⟨by rw [odd]; exact up, Nat.le_of_eq half.symm⟩

/-- The rounded quotient is at most half a unit above the exact one. -/
theorem nearest_upper
    (tie : Tie)
    (numerator denominator : Nat) :
    2 * (nearest tie numerator denominator * denominator) ≤
      2 * numerator + denominator := by
  obtain ⟨down, remainder⟩ | ⟨up, remainder⟩ := nearest_cases tie numerator denominator <;>
    omega

/-- The rounded quotient is at most half a unit below the exact one. -/
theorem nearest_lower
    (tie : Tie)
    (numerator : Nat)
    {denominator : Nat}
    (positive : 0 < denominator) :
    2 * numerator ≤
      2 * (nearest tie numerator denominator * denominator) + denominator := by
  have small := Nat.mod_lt numerator positive
  obtain ⟨down, remainder⟩ | ⟨up, remainder⟩ := nearest_cases tie numerator denominator <;>
    omega

end LedSketch.Rounding
