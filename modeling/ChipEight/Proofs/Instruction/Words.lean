import ChipEight.Proofs.Instruction.Footprint

/-!
# Words of instructions

Every instruction has one word. Decoding gives back the instruction that a word was written
for, so a word that is decoded can be read off the instruction.
-/

namespace ChipEight

namespace Word

/-- The word with a first digit and a twelve-bit address. -/
def ofAddress (family : Nat) (address : UInt16) : UInt16 :=
  UInt16.ofNat (family * 4096 + address.toNat)

/-- The word with a first digit, a register and a byte. -/
def ofByte (family : Nat) (x : Digit) (byte : Nat) : UInt16 :=
  UInt16.ofNat (family * 4096 + x.val * 256 + byte)

/-- The word with a first digit, two registers and a last digit. -/
def ofDigits (family : Nat) (x y : Digit) (last : Nat) : UInt16 :=
  UInt16.ofNat (family * 4096 + x.val * 256 + y.val * 16 + last)

/-- A word is made of its four digits. -/
theorem toNat_eq (word : UInt16) : word.toNat =
    family word * 4096 + (x word).val * 256 + (y word).val * 16 + (last word).val := by
  have bound := word.toNat_lt
  simp only [family, x, y, last, Digit.val_ofNat]
  omega

theorem toNat_byte (word : UInt16) :
    (byte word).toNat = (y word).val * 16 + (last word).val := by
  simp only [byte, y, last, Digit.val_ofNat, UInt16.toNat_toUInt8]
  omega

theorem ofAddress_address (word : UInt16) : ofAddress (family word) (address word) = word := by
  have split : family word * 4096 + (address word).toNat = word.toNat := by
    simp only [family, address, UInt16.toNat_mod]
    exact Nat.div_add_mod' ..
  rw [ofAddress, split, UInt16.ofNat_toNat]

theorem ofByte_byte (word : UInt16) : ofByte (family word) (x word) (byte word).toNat = word := by
  have split : family word * 4096 + (x word).val * 256 + (byte word).toNat = word.toNat := by
    rw [toNat_eq word, toNat_byte]
    omega
  rw [ofByte, split, UInt16.ofNat_toNat]

theorem ofDigits_last (word : UInt16) :
    ofDigits (family word) (x word) (y word) (last word).val = word := by
  rw [ofDigits, ← toNat_eq, UInt16.ofNat_toNat]

variable {first low : Nat} (x y : Digit)

/-- The parts of a word that is written from a first digit and an address. -/
theorem parts_ofAddress (isDigit : first < 16) {target : UInt16} (short : target < 0x1000) :
    family (ofAddress first target) = first ∧ address (ofAddress first target) = target := by
  have bound : target.toNat < 4096 := UInt16.lt_iff_toNat_lt.mp short
  have number : (ofAddress first target).toNat = first * 4096 + target.toNat := by
    rw [ofAddress, UInt16.toNat_ofNat']
    omega
  refine ⟨?_, ?_⟩
  · rw [family, number]
    omega
  · rw [← UInt16.toNat_inj, address, UInt16.toNat_mod, number]
    change _ % 4096 = _
    omega

/-- The parts of a word that is written from a first digit, a register and a byte. -/
theorem parts_ofByte (isDigit : first < 16) (isByte : low < 256) :
    family (ofByte first x low) = first ∧ Word.x (ofByte first x low) = x ∧
      (byte (ofByte first x low)).toNat = low := by
  have bound := x.isLt
  have number : (ofByte first x low).toNat = first * 4096 + x.val * 256 + low := by
    rw [ofByte, UInt16.toNat_ofNat']
    omega
  simp only [family, Word.x, byte, Fin.ext_iff, Digit.val_ofNat, UInt16.toNat_toUInt8, number]
  omega

/-- The parts of a word that is written from its four digits. -/
theorem parts_ofDigits (isDigit : first < 16) (isLow : low < 16) :
    family (ofDigits first x y low) = first ∧ Word.x (ofDigits first x y low) = x ∧
      Word.y (ofDigits first x y low) = y ∧ (last (ofDigits first x y low)).val = low := by
  have boundX := x.isLt
  have boundY := y.isLt
  have number :
      (ofDigits first x y low).toNat = first * 4096 + x.val * 256 + y.val * 16 + low := by
    rw [ofDigits, UInt16.toNat_ofNat']
    omega
  simp only [family, Word.x, Word.y, last, Fin.ext_iff, Digit.val_ofNat, number]
  omega

end Word

namespace Instruction

/-- The word that stands for an instruction. -/
def toWord : Instruction → UInt16
  | .clear => 0x00E0
  | .leave => 0x00EE
  | .jump address => Word.ofAddress 0x1 address
  | .call address => Word.ofAddress 0x2 address
  | .skipIfValue x value => Word.ofByte 0x3 x value.toNat
  | .skipUnlessValue x value => Word.ofByte 0x4 x value.toNat
  | .skipIfEqual x y => Word.ofDigits 0x5 x y 0x0
  | .put x value => Word.ofByte 0x6 x value.toNat
  | .increase x value => Word.ofByte 0x7 x value.toNat
  | .copy x y => Word.ofDigits 0x8 x y 0x0
  | .or x y => Word.ofDigits 0x8 x y 0x1
  | .and x y => Word.ofDigits 0x8 x y 0x2
  | .xor x y => Word.ofDigits 0x8 x y 0x3
  | .add x y => Word.ofDigits 0x8 x y 0x4
  | .subtract x y => Word.ofDigits 0x8 x y 0x5
  | .shiftRight x y => Word.ofDigits 0x8 x y 0x6
  | .subtractReversed x y => Word.ofDigits 0x8 x y 0x7
  | .shiftLeft x y => Word.ofDigits 0x8 x y 0xE
  | .skipUnlessEqual x y => Word.ofDigits 0x9 x y 0x0
  | .point address => Word.ofAddress 0xA address
  | .jumpBeyond address => Word.ofAddress 0xB address
  | .random x mask => Word.ofByte 0xC x mask.toNat
  | .draw x y height => Word.ofDigits 0xD x y height.val
  | .skipIfDown x => Word.ofByte 0xE x 0x9E
  | .skipUnlessDown x => Word.ofByte 0xE x 0xA1
  | .readDelay x => Word.ofByte 0xF x 0x07
  | .awaitKey x => Word.ofByte 0xF x 0x0A
  | .setDelay x => Word.ofByte 0xF x 0x15
  | .setSound x => Word.ofByte 0xF x 0x18
  | .pointBeyond x => Word.ofByte 0xF x 0x1E
  | .pointToGlyph x => Word.ofByte 0xF x 0x29
  | .storeDecimal x => Word.ofByte 0xF x 0x33
  | .spill last => Word.ofByte 0xF last 0x55
  | .fill last => Word.ofByte 0xF last 0x65

variable {word : UInt16} {instruction : Instruction}

/-- A word that stands for an instruction is the word of that instruction. -/
theorem toWord_of_standsFor (stands : Word.StandsFor word instruction) :
    instruction.toWord = word := by
  have address := Word.ofAddress_address word
  have byte := Word.ofByte_byte word
  have digits := Word.ofDigits_last word
  cases stands with
  | clear whole | leave whole => exact whole.symm
  | jump family | call family | point family | jumpBeyond family =>
      rw [family] at address
      exact address
  | skipIfValue family | skipUnlessValue family | put family | increase family | random family =>
      rw [family] at byte
      exact byte
  | draw family =>
      rw [family] at digits
      exact digits
  | skipIfEqual family last | skipUnlessEqual family last | copy family last | or family last
  | and family last | xor family last | add family last | subtract family last
  | shiftRight family last | subtractReversed family last | shiftLeft family last =>
      rw [family, last] at digits
      exact digits
  | _ family low =>
      rw [family, low] at byte
      exact byte

/-- A word that is decoded is the word of the instruction it is decoded to. -/
theorem toWord_of_ofWord? (decoded : ofWord? word = some instruction) :
    instruction.toWord = word :=
  toWord_of_standsFor (standsFor_of_ofWord? decoded)

/-- The address that an instruction carries. -/
def address? : Instruction → Option UInt16
  | .jump address | .call address | .point address | .jumpBeyond address => some address
  | _ => none

/-- The addresses of decoded words have no more than twelve bits. -/
theorem address_lt_of_ofWord? (decoded : ofWord? word = some instruction) {address : UInt16}
    (carried : instruction.address? = some address) : address < 0x1000 := by
  have short : Word.address word < 0x1000 := by
    rw [UInt16.lt_iff_toNat_lt, Word.address, UInt16.toNat_mod]
    exact Nat.mod_lt _ (by decide)
  cases standsFor_of_ofWord? decoded with
  | jump | call | point | jumpBeyond => exact Option.some.inj carried ▸ short
  | _ => cases carried

/-- The word of an instruction stands for it, if its address has no more than twelve bits. -/
theorem standsFor_toWord (instruction : Instruction)
    (short : ∀ address ∈ instruction.address?, address < 0x1000) :
    Word.StandsFor instruction.toWord instruction := by
  apply standsFor_of_ofWord?
  cases instruction with
  | clear | leave => rfl
  | jump address | call address | point address | jumpBeyond address =>
      have parts {first : Nat} (isDigit : first < 16) :=
        Word.parts_ofAddress isDigit (short address rfl)
      simp [toWord, ofWord?, parts]
  | skipIfValue x value | skipUnlessValue x value | put x value | increase x value
  | random x value =>
      have parts {first : Nat} (isDigit : first < 16) :=
        Word.parts_ofByte x isDigit value.toNat_lt
      simp [toWord, ofWord?, ← UInt8.toNat_inj, parts]
  | draw x y height =>
      have parts := Word.parts_ofDigits x y (by decide : 0xD < 16) height.isLt
      simp [toWord, ofWord?, Fin.ext_iff, parts]
  | skipIfEqual x y | skipUnlessEqual x y | copy x y | or x y | and x y | xor x y | add x y
  | subtract x y | shiftRight x y | subtractReversed x y | shiftLeft x y =>
      have parts {first low : Nat} (isDigit : first < 16) (isLow : low < 16) :=
        Word.parts_ofDigits x y isDigit isLow
      simp [toWord, ofWord?, ofRegisterPair?, parts]
  | skipIfDown x | skipUnlessDown x =>
      have parts {low : Nat} (isByte : low < 256) :=
        Word.parts_ofByte x (by decide : 0xE < 16) isByte
      simp [toWord, ofWord?, ofKeyTest?, parts]
  | readDelay x | awaitKey x | setDelay x | setSound x | pointBeyond x | pointToGlyph x
  | storeDecimal x | spill x | fill x =>
      have parts {low : Nat} (isByte : low < 256) :=
        Word.parts_ofByte x (by decide : 0xF < 16) isByte
      simp [toWord, ofWord?, ofTransfer?, parts]

end Instruction

end ChipEight
