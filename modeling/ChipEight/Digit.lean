/-!
# Hexadecimal digits

One hexadecimal digit numbers a register, a key of the keypad, and every operand of
an instruction that is neither a byte nor an address.
-/

namespace ChipEight

abbrev Digit := Fin 16

namespace Digit

/-- The last hexadecimal digit of a number. -/
def ofNat (number : Nat) : Digit :=
  ⟨number % 16, Nat.mod_lt number (by decide)⟩

/-- The digit that a byte is, if it is not too large. -/
def ofByte? (byte : UInt8) : Option Digit :=
  if byte.toNat < 16 then some (ofNat byte.toNat) else none

def toByte (digit : Digit) : UInt8 :=
  UInt8.ofNat digit.val

@[simp]
theorem val_ofNat (number : Nat) : (ofNat number).val = number % 16 :=
  rfl

theorem ofByte?_eq_some_iff {byte : UInt8} {digit : Digit} :
    ofByte? byte = some digit ↔ byte.toNat = digit.val := by
  simp only [ofByte?]
  split
  · simp only [Option.some.injEq, Fin.ext_iff, val_ofNat]
    omega
  · constructor
    · simp
    · intro same
      omega

theorem ofByte?_eq_none_iff {byte : UInt8} : ofByte? byte = none ↔ 16 ≤ byte.toNat := by
  simp [ofByte?]

end Digit

end ChipEight
