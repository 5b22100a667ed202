import ChipEight.Keypad

/-!
# Keyboard

The keypad lies on the four left columns of a keyboard:

    1 2 3 C      1 2 3 4
    4 5 6 D      Q W E R
    7 8 9 E      A S D F
    A 0 B F      Z X C V

Two tables say so. A front end names a key by the position it has on the keyboard
(its scan code, as numbered by the usage tables for keyboards), the first table
gives the label printed there, and the second the keypad key.
-/

namespace ChipEight.Keyboard

/-- The digit of the keypad key under a label; small letters count as capitals. -/
def digitOfLabel? (label : Char) : Option Nat :=
  match label.toUpper with
  | 'X' => some 0x0
  | '1' => some 0x1
  | '2' => some 0x2
  | '3' => some 0x3
  | 'Q' => some 0x4
  | 'W' => some 0x5
  | 'E' => some 0x6
  | 'A' => some 0x7
  | 'S' => some 0x8
  | 'D' => some 0x9
  | 'Z' => some 0xA
  | 'C' => some 0xB
  | '4' => some 0xC
  | 'R' => some 0xD
  | 'F' => some 0xE
  | 'V' => some 0xF
  | _ => none

def keyOfLabel? (label : Char) : Option Key :=
  (digitOfLabel? label).map Digit.ofNat

abbrev ScanCode := Nat

namespace ScanCode

def escape : ScanCode := 41

def space : ScanCode := 44

/-- The label at a position, for the sixteen positions that serve as the keypad. -/
def label? (code : ScanCode) : Option Char :=
  match code with
  | 4 => some 'A'
  | 6 => some 'C'
  | 7 => some 'D'
  | 8 => some 'E'
  | 9 => some 'F'
  | 20 => some 'Q'
  | 21 => some 'R'
  | 22 => some 'S'
  | 25 => some 'V'
  | 26 => some 'W'
  | 27 => some 'X'
  | 29 => some 'Z'
  | 30 => some '1'
  | 31 => some '2'
  | 32 => some '3'
  | 33 => some '4'
  | _ => none

end ScanCode

def keyAt? (code : ScanCode) : Option Key :=
  (ScanCode.label? code).bind keyOfLabel?

end ChipEight.Keyboard
