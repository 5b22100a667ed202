/-!
# Blocks of random words

Random words come in blocks of sixteen. A block is a mixture of a key of eight words
and the block's number: the words are arranged in a square, twelve rounds of
additions, exclusive ors and rotations stir the columns and the diagonals in turn,
and the square from before the rounds is added at the end.
-/

namespace ChipEight.Random

/-- Sixteen words, a square of four by four in reading order. -/
abbrev Block := Vector UInt32 16

def rotateLeft (word amount : UInt32) : UInt32 :=
  (word <<< amount) ||| (word >>> (32 - amount))

def rotateRight (word amount : UInt32) : UInt32 :=
  (word >>> amount) ||| (word <<< (32 - amount))

def wordOf (block : Block) (place : Nat) : UInt32 :=
  block[place]?.getD 0

/-- Add the second word to the first, and turn the third after mixing the first in. -/
def mix (block : Block) (first second third : Nat) (amount : UInt32) : Block :=
  let block := block.setIfInBounds first (wordOf block first + wordOf block second)
  block.setIfInBounds third (rotateLeft (wordOf block third ^^^ wordOf block first) amount)

def quarterRound (block : Block) (a b c d : Nat) : Block :=
  mix (mix (mix (mix block a b d 16) c d b 12) a b d 8) c d b 7

/-- Stir the four columns and then the four diagonals. -/
def doubleRound (block : Block) : Block :=
  let block := quarterRound block 0 4 8 12
  let block := quarterRound block 1 5 9 13
  let block := quarterRound block 2 6 10 14
  let block := quarterRound block 3 7 11 15
  let block := quarterRound block 0 5 10 15
  let block := quarterRound block 1 6 11 12
  let block := quarterRound block 2 7 8 13
  quarterRound block 3 4 9 14

/-- The square before the rounds: four fixed words, the key, and the block's number in
two halves followed by zeros. -/
def square (key : Vector UInt32 8) (number : UInt64) : Block :=
  #v[0x61707865, 0x3320646e, 0x79622d32, 0x6b206574,
    key[0], key[1], key[2], key[3],
    key[4], key[5], key[6], key[7],
    number.toUInt32, (number >>> 32).toUInt32, 0, 0]

def block (key : Vector UInt32 8) (number : UInt64) : Block :=
  let start := square key number
  Vector.zipWith (· + ·) (Nat.repeat doubleRound 6 start) start

end ChipEight.Random
