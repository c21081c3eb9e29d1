namespace LedSketch

/-!
# Simulated clock

Time moves only when the sketch asks for a delay.
-/

/-- The time since the start of a run. -/
structure Clock where
  elapsedMicros : Nat
  deriving Repr, DecidableEq

namespace Clock

/-- The clock of a run that has just started. -/
def start : Clock := ⟨0⟩

/-- Whole milliseconds since the start. -/
def millis (clock : Clock) : Nat := clock.elapsedMicros / 1000

/-- Microseconds since the start. -/
def micros (clock : Clock) : Nat := clock.elapsedMicros

/-- Let a number of microseconds pass; a negative number passes no time. -/
def passMicros
    (clock : Clock)
    (amount : Int) :
    Clock :=
  ⟨clock.elapsedMicros + amount.toNat⟩

/-- Let a number of milliseconds pass; a negative number passes no time. -/
def passMillis
    (clock : Clock)
    (amount : Int) :
    Clock :=
  ⟨clock.elapsedMicros + amount.toNat * 1000⟩

end Clock

end LedSketch
