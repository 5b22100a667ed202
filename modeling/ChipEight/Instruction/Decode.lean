import ChipEight.Instruction.Basic

/-!
# Decoding

An instruction word has four hexadecimal digits. The first selects one of sixteen
families. The others are operands, except that four families are divided further by
their last digit or their last two digits.
-/

namespace ChipEight

namespace Word

/-- The first digit of a word, its family. -/
def family (word : UInt16) : Nat := word.toNat / 4096

def x (word : UInt16) : Digit := Digit.ofNat (word.toNat / 256)

def y (word : UInt16) : Digit := Digit.ofNat (word.toNat / 16)

def last (word : UInt16) : Digit := Digit.ofNat word.toNat

def byte (word : UInt16) : UInt8 := word.toUInt8

def address (word : UInt16) : UInt16 := word % 0x1000

end Word

namespace Instruction

def ofRegisterPair? (x y : Digit) (last : Nat) : Option Instruction :=
  match last with
  | 0x0 => some (.copy x y)
  | 0x1 => some (.or x y)
  | 0x2 => some (.and x y)
  | 0x3 => some (.xor x y)
  | 0x4 => some (.add x y)
  | 0x5 => some (.subtract x y)
  | 0x6 => some (.shiftRight x y)
  | 0x7 => some (.subtractReversed x y)
  | 0xE => some (.shiftLeft x y)
  | _ => none

def ofKeyTest? (x : Digit) (byte : Nat) : Option Instruction :=
  match byte with
  | 0x9E => some (.skipIfDown x)
  | 0xA1 => some (.skipUnlessDown x)
  | _ => none

def ofTransfer? (x : Digit) (byte : Nat) : Option Instruction :=
  match byte with
  | 0x07 => some (.readDelay x)
  | 0x0A => some (.awaitKey x)
  | 0x15 => some (.setDelay x)
  | 0x18 => some (.setSound x)
  | 0x1E => some (.pointBeyond x)
  | 0x29 => some (.pointToGlyph x)
  | 0x33 => some (.storeDecimal x)
  | 0x55 => some (.spill x)
  | 0x65 => some (.fill x)
  | _ => none

/-- The instruction that a word stands for, if it stands for one. -/
def ofWord? (word : UInt16) : Option Instruction :=
  match Word.family word with
  | 0x0 =>
    if word = 0x00E0 then some .clear
    else if word = 0x00EE then some .leave
    else none
  | 0x1 => some (.jump (Word.address word))
  | 0x2 => some (.call (Word.address word))
  | 0x3 => some (.skipIfValue (Word.x word) (Word.byte word))
  | 0x4 => some (.skipUnlessValue (Word.x word) (Word.byte word))
  | 0x5 =>
    if (Word.last word).val = 0 then some (.skipIfEqual (Word.x word) (Word.y word)) else none
  | 0x6 => some (.put (Word.x word) (Word.byte word))
  | 0x7 => some (.increase (Word.x word) (Word.byte word))
  | 0x8 => ofRegisterPair? (Word.x word) (Word.y word) (Word.last word).val
  | 0x9 =>
    if (Word.last word).val = 0 then some (.skipUnlessEqual (Word.x word) (Word.y word)) else none
  | 0xA => some (.point (Word.address word))
  | 0xB => some (.jumpBeyond (Word.address word))
  | 0xC => some (.random (Word.x word) (Word.byte word))
  | 0xD => some (.draw (Word.x word) (Word.y word) (Word.last word))
  | 0xE => ofKeyTest? (Word.x word) (Word.byte word).toNat
  | 0xF => ofTransfer? (Word.x word) (Word.byte word).toNat
  | _ => none

end Instruction

end ChipEight
