import ChipEight.Registers
import ChipEight.Settings

/-!
# Arithmetic on registers

Results wrap around at 256, and VF tells whether they did, or which bit was shifted
out. The order in which the flag and the result are written differs from one
instruction to the next, and shows when an operand is VF itself.
-/

namespace ChipEight

def lowBit (byte : UInt8) : Bool := byte % 2 = 1

def highBit (byte : UInt8) : Bool := 128 ≤ byte

namespace Registers

def add (registers : Registers) (x y : Digit) : Registers :=
  let first := registers.read x
  let second := registers.read y
  (registers.write x (first + second)).setFlag (255 < first.toNat + second.toNat)

/-- Write to the flag that nothing is borrowed, then take the second register from the
first. The flag keeps its value if it is the first register itself. -/
def subtract (registers : Registers) (x y : Digit) : Registers :=
  let first := registers.read x
  let second := registers.read y
  let flagged := registers.setFlag (second ≤ first)
  if x = flagRegister then flagged else flagged.write x (first - second)

/-- Halve the first register; the flag receives the bit that drops out. -/
def shiftRight (registers : Registers) (roles : ShiftRoles) (x y : Digit) : Registers :=
  let first := registers.read x
  match roles with
  | .legacy => (registers.setFlag (lowBit first)).write y (first / 2)
  | .canonical => (registers.write x (first / 2)).setFlag (lowBit first)

/-- Subtract one of two registers from the other; the flag tells whether the first is at
most the second. -/
def subtractReversed (registers : Registers) (roles : ShiftRoles) (x y : Digit) : Registers :=
  let first := registers.read x
  let second := registers.read y
  match roles with
  | .legacy => (registers.setFlag (first ≤ second)).write y (first - second)
  | .canonical => (registers.write x (second - first)).setFlag (first ≤ second)

/-- Double the first register. The canonical flag is the bit that drops out at the top,
the legacy one the bit at the bottom. -/
def shiftLeft (registers : Registers) (roles : ShiftRoles) (x y : Digit) : Registers :=
  let first := registers.read x
  match roles with
  | .legacy => (registers.setFlag (lowBit first)).write y (first * 2)
  | .canonical => (registers.write x (first * 2)).setFlag (highBit first)

end Registers

end ChipEight
