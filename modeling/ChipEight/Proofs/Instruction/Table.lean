import ChipEight.Instruction.Decode

/-!
# The table of instruction words

A word stands for an instruction by its digits. The relation of this file has one line for each
of the 34 kinds of words, and decoding finds exactly what it says. What is to be shown about the
words of the instructions can so be shown line by line.
-/

namespace ChipEight

/-- The instructions that a word stands for, by the digits that its line fixes. -/
inductive Word.StandsFor (word : UInt16) : Instruction → Prop where
  | clear (whole : word = 0x00E0) : StandsFor word .clear
  | leave (whole : word = 0x00EE) : StandsFor word .leave
  | jump (family : Word.family word = 0x1) : StandsFor word (.jump (Word.address word))
  | call (family : Word.family word = 0x2) : StandsFor word (.call (Word.address word))
  | skipIfValue (family : Word.family word = 0x3) :
      StandsFor word (.skipIfValue (Word.x word) (Word.byte word))
  | skipUnlessValue (family : Word.family word = 0x4) :
      StandsFor word (.skipUnlessValue (Word.x word) (Word.byte word))
  | skipIfEqual (family : Word.family word = 0x5) (last : (Word.last word).val = 0x0) :
      StandsFor word (.skipIfEqual (Word.x word) (Word.y word))
  | put (family : Word.family word = 0x6) : StandsFor word (.put (Word.x word) (Word.byte word))
  | increase (family : Word.family word = 0x7) :
      StandsFor word (.increase (Word.x word) (Word.byte word))
  | copy (family : Word.family word = 0x8) (last : (Word.last word).val = 0x0) :
      StandsFor word (.copy (Word.x word) (Word.y word))
  | or (family : Word.family word = 0x8) (last : (Word.last word).val = 0x1) :
      StandsFor word (.or (Word.x word) (Word.y word))
  | and (family : Word.family word = 0x8) (last : (Word.last word).val = 0x2) :
      StandsFor word (.and (Word.x word) (Word.y word))
  | xor (family : Word.family word = 0x8) (last : (Word.last word).val = 0x3) :
      StandsFor word (.xor (Word.x word) (Word.y word))
  | add (family : Word.family word = 0x8) (last : (Word.last word).val = 0x4) :
      StandsFor word (.add (Word.x word) (Word.y word))
  | subtract (family : Word.family word = 0x8) (last : (Word.last word).val = 0x5) :
      StandsFor word (.subtract (Word.x word) (Word.y word))
  | shiftRight (family : Word.family word = 0x8) (last : (Word.last word).val = 0x6) :
      StandsFor word (.shiftRight (Word.x word) (Word.y word))
  | subtractReversed (family : Word.family word = 0x8) (last : (Word.last word).val = 0x7) :
      StandsFor word (.subtractReversed (Word.x word) (Word.y word))
  | shiftLeft (family : Word.family word = 0x8) (last : (Word.last word).val = 0xE) :
      StandsFor word (.shiftLeft (Word.x word) (Word.y word))
  | skipUnlessEqual (family : Word.family word = 0x9) (last : (Word.last word).val = 0x0) :
      StandsFor word (.skipUnlessEqual (Word.x word) (Word.y word))
  | point (family : Word.family word = 0xA) : StandsFor word (.point (Word.address word))
  | jumpBeyond (family : Word.family word = 0xB) : StandsFor word (.jumpBeyond (Word.address word))
  | random (family : Word.family word = 0xC) :
      StandsFor word (.random (Word.x word) (Word.byte word))
  | draw (family : Word.family word = 0xD) :
      StandsFor word (.draw (Word.x word) (Word.y word) (Word.last word))
  | skipIfDown (family : Word.family word = 0xE) (byte : (Word.byte word).toNat = 0x9E) :
      StandsFor word (.skipIfDown (Word.x word))
  | skipUnlessDown (family : Word.family word = 0xE) (byte : (Word.byte word).toNat = 0xA1) :
      StandsFor word (.skipUnlessDown (Word.x word))
  | readDelay (family : Word.family word = 0xF) (byte : (Word.byte word).toNat = 0x07) :
      StandsFor word (.readDelay (Word.x word))
  | awaitKey (family : Word.family word = 0xF) (byte : (Word.byte word).toNat = 0x0A) :
      StandsFor word (.awaitKey (Word.x word))
  | setDelay (family : Word.family word = 0xF) (byte : (Word.byte word).toNat = 0x15) :
      StandsFor word (.setDelay (Word.x word))
  | setSound (family : Word.family word = 0xF) (byte : (Word.byte word).toNat = 0x18) :
      StandsFor word (.setSound (Word.x word))
  | pointBeyond (family : Word.family word = 0xF) (byte : (Word.byte word).toNat = 0x1E) :
      StandsFor word (.pointBeyond (Word.x word))
  | pointToGlyph (family : Word.family word = 0xF) (byte : (Word.byte word).toNat = 0x29) :
      StandsFor word (.pointToGlyph (Word.x word))
  | storeDecimal (family : Word.family word = 0xF) (byte : (Word.byte word).toNat = 0x33) :
      StandsFor word (.storeDecimal (Word.x word))
  | spill (family : Word.family word = 0xF) (byte : (Word.byte word).toNat = 0x55) :
      StandsFor word (.spill (Word.x word))
  | fill (family : Word.family word = 0xF) (byte : (Word.byte word).toNat = 0x65) :
      StandsFor word (.fill (Word.x word))

namespace Instruction

variable {word : UInt16} {instruction : Instruction}

theorem standsFor_of_ofRegisterPair? (family : Word.family word = 0x8)
    (decoded : ofRegisterPair? (Word.x word) (Word.y word) (Word.last word).val =
      some instruction) : Word.StandsFor word instruction := by
  unfold ofRegisterPair? at decoded
  split at decoded
  case h_1 last => cases decoded; exact .copy family last
  case h_2 last => cases decoded; exact .or family last
  case h_3 last => cases decoded; exact .and family last
  case h_4 last => cases decoded; exact .xor family last
  case h_5 last => cases decoded; exact .add family last
  case h_6 last => cases decoded; exact .subtract family last
  case h_7 last => cases decoded; exact .shiftRight family last
  case h_8 last => cases decoded; exact .subtractReversed family last
  case h_9 last => cases decoded; exact .shiftLeft family last
  case h_10 => cases decoded

theorem standsFor_of_ofKeyTest? (family : Word.family word = 0xE)
    (decoded : ofKeyTest? (Word.x word) (Word.byte word).toNat = some instruction) :
    Word.StandsFor word instruction := by
  unfold ofKeyTest? at decoded
  split at decoded
  case h_1 byte => cases decoded; exact .skipIfDown family byte
  case h_2 byte => cases decoded; exact .skipUnlessDown family byte
  case h_3 => cases decoded

theorem standsFor_of_ofTransfer? (family : Word.family word = 0xF)
    (decoded : ofTransfer? (Word.x word) (Word.byte word).toNat = some instruction) :
    Word.StandsFor word instruction := by
  unfold ofTransfer? at decoded
  split at decoded
  case h_1 byte => cases decoded; exact .readDelay family byte
  case h_2 byte => cases decoded; exact .awaitKey family byte
  case h_3 byte => cases decoded; exact .setDelay family byte
  case h_4 byte => cases decoded; exact .setSound family byte
  case h_5 byte => cases decoded; exact .pointBeyond family byte
  case h_6 byte => cases decoded; exact .pointToGlyph family byte
  case h_7 byte => cases decoded; exact .storeDecimal family byte
  case h_8 byte => cases decoded; exact .spill family byte
  case h_9 byte => cases decoded; exact .fill family byte
  case h_10 => cases decoded

/-- Decoding finds instructions of the table only. -/
theorem standsFor_of_ofWord? (decoded : ofWord? word = some instruction) :
    Word.StandsFor word instruction := by
  unfold ofWord? at decoded
  split at decoded
  case h_1 =>
    split at decoded
    · next whole => cases decoded; exact .clear whole
    · split at decoded
      · next whole => cases decoded; exact .leave whole
      · cases decoded
  case h_2 family => cases decoded; exact .jump family
  case h_3 family => cases decoded; exact .call family
  case h_4 family => cases decoded; exact .skipIfValue family
  case h_5 family => cases decoded; exact .skipUnlessValue family
  case h_6 family =>
    split at decoded
    · next last => cases decoded; exact .skipIfEqual family last
    · cases decoded
  case h_7 family => cases decoded; exact .put family
  case h_8 family => cases decoded; exact .increase family
  case h_9 family => exact standsFor_of_ofRegisterPair? family decoded
  case h_10 family =>
    split at decoded
    · next last => cases decoded; exact .skipUnlessEqual family last
    · cases decoded
  case h_11 family => cases decoded; exact .point family
  case h_12 family => cases decoded; exact .jumpBeyond family
  case h_13 family => cases decoded; exact .random family
  case h_14 family => cases decoded; exact .draw family
  case h_15 family => exact standsFor_of_ofKeyTest? family decoded
  case h_16 family => exact standsFor_of_ofTransfer? family decoded
  case h_17 => cases decoded

/-- Decoding finds every instruction of the table. -/
theorem ofWord?_of_standsFor (stands : Word.StandsFor word instruction) :
    ofWord? word = some instruction := by
  cases stands with
  | clear whole | leave whole =>
      subst whole
      rfl
  | skipIfEqual family last | skipUnlessEqual family last =>
      simp only [ofWord?, family, last, if_true]
  | copy family last | or family last | and family last | xor family last | add family last
  | subtract family last | shiftRight family last | subtractReversed family last
  | shiftLeft family last => simp only [ofWord?, family, ofRegisterPair?, last]
  | skipIfDown family byte | skipUnlessDown family byte =>
      simp only [ofWord?, family, ofKeyTest?, byte]
  | readDelay family byte | awaitKey family byte | setDelay family byte | setSound family byte
  | pointBeyond family byte | pointToGlyph family byte | storeDecimal family byte
  | spill family byte | fill family byte => simp only [ofWord?, family, ofTransfer?, byte]
  | _ family => simp only [ofWord?, family]

theorem ofWord?_eq_some_iff :
    ofWord? word = some instruction ↔ Word.StandsFor word instruction :=
  ⟨standsFor_of_ofWord?, ofWord?_of_standsFor⟩

/-- No word is on two lines. -/
theorem standsFor_unique {other : Instruction} (stands : Word.StandsFor word instruction)
    (also : Word.StandsFor word other) : instruction = other := by
  rw [← ofWord?_eq_some_iff] at stands also
  exact Option.some.inj (stands.symm.trans also)

theorem not_standsFor_of_unknown (unknown : ofWord? word = none) (instruction : Instruction) :
    ¬ Word.StandsFor word instruction := by
  intro stands
  rw [← ofWord?_eq_some_iff, unknown] at stands
  cases stands

end Instruction

end ChipEight
