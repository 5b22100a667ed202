/-!
# Numbers on the command line

A number is written in decimal digits, at least one. A plus sign may stand in front,
and for some options a minus sign. It has to lie in the range of its option.
-/

namespace ChipEight.CommandLine

def digit? (character : Char) : Option Nat :=
  if '0' ≤ character ∧ character ≤ '9' then some (character.toNat - '0'.toNat) else none

def readDigits? (sofar : Nat) : List Char → Option Nat
  | [] => some sofar
  | character :: rest => (digit? character).bind fun digit => readDigits? (sofar * 10 + digit) rest

def readNatural? : List Char → Option Nat
  | [] => none
  | digits => readDigits? 0 digits

/-- A number without a sign, or with a plus sign. -/
def readUnsigned? : List Char → Option Nat
  | '+' :: digits => readNatural? digits
  | digits => readNatural? digits

def readSigned? : List Char → Option Int
  | '-' :: digits => (readNatural? digits).map fun size => -(size : Int)
  | text => (readUnsigned? text).map Int.ofNat

/-- A number that fits 32 bits; a minus sign is allowed in front of zero. -/
def readWord32? (text : String) : Option UInt32 :=
  (readSigned? text.toList).bind fun number =>
    if 0 ≤ number ∧ number < 0x100000000 then some (UInt32.ofNat number.toNat) else none

/-- A number that fits 64 bits, without a minus sign. -/
def readNatural64? (text : String) : Option Nat :=
  (readUnsigned? text.toList).filter (· < 0x10000000000000000)

end ChipEight.CommandLine
