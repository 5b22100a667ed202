import ChipEight.Digit

/-!
# Instructions

The 34 instructions of the machine, with their operands. A register operand is the
number of a V register; an address has twelve bits.
-/

namespace ChipEight

/-- An instruction. -/
inductive Instruction where
  | clear
  | leave
  | jump (address : UInt16)
  | call (address : UInt16)
  | skipIfValue (x : Digit) (value : UInt8)
  | skipUnlessValue (x : Digit) (value : UInt8)
  | skipIfEqual (x y : Digit)
  | skipUnlessEqual (x y : Digit)
  | put (x : Digit) (value : UInt8)
  /-- Add a value to a register, without a carry. -/
  | increase (x : Digit) (value : UInt8)
  | copy (x y : Digit)
  | or (x y : Digit)
  | and (x y : Digit)
  | xor (x y : Digit)
  | add (x y : Digit)
  | subtract (x y : Digit)
  | shiftRight (x y : Digit)
  /-- Subtract with the roles of the two registers exchanged. -/
  | subtractReversed (x y : Digit)
  | shiftLeft (x y : Digit)
  /-- Point the index register to an address. -/
  | point (address : UInt16)
  /-- Go on at an address moved on by V0. -/
  | jumpBeyond (address : UInt16)
  /-- Give a register the bits of a random byte that a mask has. -/
  | random (x : Digit) (mask : UInt8)
  | draw (x y height : Digit)
  | skipIfDown (x : Digit)
  | skipUnlessDown (x : Digit)
  | readDelay (x : Digit)
  | awaitKey (x : Digit)
  | setDelay (x : Digit)
  | setSound (x : Digit)
  /-- Move the index register on by a register. -/
  | pointBeyond (x : Digit)
  | pointToGlyph (x : Digit)
  | storeDecimal (x : Digit)
  /-- Store the registers from V0 to a last one. -/
  | spill (last : Digit)
  /-- Load the registers from V0 to a last one. -/
  | fill (last : Digit)
  deriving DecidableEq, Repr

end ChipEight
