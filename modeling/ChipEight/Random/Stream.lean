import ChipEight.Random.Block

/-!
# The stream of random bytes

A key fixes an endless stream of bytes: it gives random words block after block, and
each word gives its low byte. The key is either stretched from a seed, by a linear
recurrence whose state is scrambled into one word at a time, or drawn in full from the
outside.

A generator is a place in the stream. Drawing a byte moves it on by one.
-/

namespace ChipEight.Random

/-- One step of the recurrence that stretches a seed. -/
def stretch (state : UInt64) : UInt64 :=
  state * 6364136223846793005 + 11634580027462260723

def keyWord (state : UInt64) : UInt32 :=
  rotateRight (((state >>> 18) ^^^ state) >>> 27).toUInt32 (state >>> 59).toUInt32

def keyOfSeed (seed : UInt64) : Vector UInt32 8 :=
  Vector.ofFn fun place => keyWord (Nat.repeat stretch (place.val + 1) seed)

/-- Bits for a whole key. -/
abbrev Entropy := BitVec 256

/-- The bits of a list of bytes, the lowest bits first. -/
def Entropy.ofBytes (bytes : List UInt8) : Entropy :=
  BitVec.ofNat 256 (bytes.foldr (fun byte higher => byte.toNat + 256 * higher) 0)

def keyOfEntropy (entropy : Entropy) : Vector UInt32 8 :=
  Vector.ofFn fun place => ⟨entropy.extractLsb' (32 * place.val) 32⟩

/-- The random word at a position of the stream. -/
def wordAt (key : Vector UInt32 8) (position : Nat) : UInt32 :=
  wordOf (block key (UInt64.ofNat (position / 16))) (position % 16)

def byteAt (key : Vector UInt32 8) (position : Nat) : UInt8 :=
  (wordAt key position).toUInt8

/-- The first and the eighth byte of the seed 8. -/
example : byteAt (keyOfSeed 8) 0 = 0xB2 ∧ byteAt (keyOfSeed 8) 7 = 0xB3 := by
  decide +kernel

/-- Two words, joined, of a key that is given in full: four words and four zeros. -/
example :
    let key := keyOfEntropy (Entropy.ofBytes [1, 0, 0, 0, 23, 0, 0, 0, 200, 1, 0, 0, 210, 30, 0, 0])
    (wordAt key 1).toNat * 0x100000000 + (wordAt key 0).toNat = 10719222850664546238 := by
  decide +kernel

/-- A place in the stream of a key. -/
structure Generator where
  key : Vector UInt32 8
  drawn : Nat
  deriving DecidableEq

namespace Generator

def start (key : Vector UInt32 8) : Generator := ⟨key, 0⟩

def next (generator : Generator) : UInt8 :=
  byteAt generator.key generator.drawn

def advance (generator : Generator) : Generator :=
  { generator with drawn := generator.drawn + 1 }

end Generator

end ChipEight.Random
