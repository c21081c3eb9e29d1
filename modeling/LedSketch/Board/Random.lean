namespace LedSketch

/-!
# Random numbers

The generator is the ChaCha stream cipher with twelve rounds.  Its key is
expanded from a seed of 64 bits and the words of its stream are numbered from
zero, so that a generator is a key and a position.
-/

/-- A generator: the key, and how many words of its stream have been used. -/
structure Random where
  key : Array UInt32
  used : Nat
  deriving Repr, DecidableEq

namespace Random

/-- One step of the linear congruence that expands a seed. -/
def seedStep (state : UInt64) : UInt64 :=
  state * 6364136223846793005 + 11634580027462260723

/-- The key word of a seed state: its high bits folded and rotated. -/
def seedWord (state : UInt64) : UInt32 :=
  let folded := (((state >>> 18) ^^^ state) >>> 27).toUInt32
  let turn := (state >>> 59).toUInt32
  (folded >>> turn) ||| (folded <<< ((32 - turn) % 32))

/-- The first `count` key words of a seed state. -/
def seedWords : Nat → UInt64 → List UInt32
  | 0, _ => []
  | count + 1, state =>
      let next := seedStep state
      seedWord next :: seedWords count next

/-- The generator of a seed. -/
def ofSeed (seed : UInt64) : Random :=
  { key := (seedWords 8 seed).toArray
    used := 0 }

/-- Rotate a word to the left by less than its width. -/
def rotateLeft (word amount : UInt32) : UInt32 :=
  (word <<< amount) ||| (word >>> (32 - amount))

/-- A block of sixteen words. -/
abbrev Block := Array UInt32

/-- One quarter round on four words of a block. -/
def quarterRound
    (block : Block)
    (a b c d : Nat) :
    Block :=
  let wordA := block.getD a 0 + block.getD b 0
  let wordD := rotateLeft (block.getD d 0 ^^^ wordA) 16
  let wordC := block.getD c 0 + wordD
  let wordB := rotateLeft (block.getD b 0 ^^^ wordC) 12
  let wordA := wordA + wordB
  let wordD := rotateLeft (wordD ^^^ wordA) 8
  let wordC := wordC + wordD
  let wordB := rotateLeft (wordB ^^^ wordC) 7
  (((block.setIfInBounds a wordA).setIfInBounds b wordB).setIfInBounds c
    wordC).setIfInBounds d wordD

/-- A round on the columns, then a round on the diagonals. -/
def doubleRound (block : Block) : Block :=
  let block := quarterRound block 0 4 8 12
  let block := quarterRound block 1 5 9 13
  let block := quarterRound block 2 6 10 14
  let block := quarterRound block 3 7 11 15
  let block := quarterRound block 0 5 10 15
  let block := quarterRound block 1 6 11 12
  let block := quarterRound block 2 7 8 13
  quarterRound block 3 4 9 14

/-- The input block: the constants, the key and the number of the block. -/
def inputBlock
    (key : Array UInt32)
    (number : Nat) :
    Block :=
  #[0x61707865, 0x3320646e, 0x79622d32, 0x6b206574] ++ key ++
    #[UInt32.ofNat number, UInt32.ofNat (number / Nat.pow 2 32), 0, 0]

/-- One block of the stream: six double rounds, added to the input block. -/
def block
    (key : Array UInt32)
    (number : Nat) :
    Block :=
  let input := inputBlock key number
  let mixed := (List.range 6).foldl (fun block _ => doubleRound block) input
  input.zipWith (· + ·) mixed

/-- The word of the stream at a position. -/
def word
    (key : Array UInt32)
    (position : Nat) :
    UInt32 :=
  (block key (position / 16)).getD (position % 16) 0

/-- The next 64 bits: two words of the stream, the low one first. -/
def next (random : Random) : UInt64 × Random :=
  let low := word random.key random.used
  let high := word random.key (random.used + 1)
  (high.toUInt64 <<< 32 ||| low.toUInt64, { random with used := random.used + 2 })

/-- How many draws are made before the last one is taken as it is. -/
def drawLimit : Nat := 4096

/--
A number below `range`, which is positive.  A draw is scaled by `range` into 128
bits; it counts if the low half is at most `zone`, and its high half is the number.
-/
def belowWithin
    (range zone : Nat) :
    Nat → Random → Nat × Random
  | 0, random => (0, random)
  | draws + 1, random =>
      let (bits, random) := random.next
      let product := bits.toNat * range
      if product % Nat.pow 2 64 ≤ zone then
        (product / Nat.pow 2 64, random)
      else
        belowWithin range zone draws random

/-- A uniform number below `range`, where `0 < range < 2 ^ 64`. -/
def below
    (range : Nat)
    (random : Random) :
    Nat × Random :=
  let zone := range * Nat.pow 2 (63 - range.log2) - 1
  belowWithin range zone drawLimit random

/-- A uniform integer from `low` up to but not including `high`; `low` if there is none. -/
def between
    (low high : Int)
    (random : Random) :
    Int × Random :=
  if high ≤ low then
    (low, random)
  else
    let (offset, random) := below (high - low).toNat random
    (low + offset, random)

end Random

end LedSketch
