namespace LedSketch.Radix

/-!
# Numbers in a base up to 36

Digits are `0` to `9` and then the capital letters.
-/

/-- The character of a digit below 36. -/
def digit (value : Nat) : Char :=
  if value < 10 then
    Char.ofNat ('0'.toNat + value)
  else
    Char.ofNat ('A'.toNat + (value - 10))

/-- The digits of `n` in a base above one, put in front of `tail`. -/
def digitsBefore
    (base : Nat)
    (tail : List Char)
    (n : Nat) :
    List Char :=
  if _ : 0 < n / base ∧ n / base < n then
    digitsBefore base (digit (n % base) :: tail) (n / base)
  else
    digit (n % base) :: tail
  termination_by n

/-- The text of `n` in a base above one, without leading zeros. -/
def text
    (base n : Nat) :
    String :=
  String.ofList (digitsBefore base [] n)

end LedSketch.Radix
