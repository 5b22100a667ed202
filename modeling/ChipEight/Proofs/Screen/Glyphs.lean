import ChipEight.Memory
import ChipEight.Proofs.Screen.Pixels

/-!
# Glyphs

The font has a glyph for each hexadecimal digit. A program draws one by pointing to it and drawing
five bytes from there. The glyphs are as wide as half a byte, so nothing is drawn in the four
columns to their right, and all sixteen of them stand in memory one after the other.
-/

namespace ChipEight

namespace Font

/-- Whether the glyph of a digit has a pixel. Rows are counted from the top and columns from the
left. -/
def lights (digit row column : Nat) : Bool :=
  Sprite.bit (glyphs[digit * glyphHeight.toNat + row]?.getD 0) column

theorem mod_sixteen_of_mem_glyphs {byte : UInt8} (listed : byte ∈ glyphs.toList) :
    byte.toNat % 16 = 0 := by
  have checked : glyphs.toList.all (fun byte => byte.toNat % 16 == 0) = true := by decide
  exact eq_of_beq (List.all_eq_true.mp checked byte listed)

/-- The right half of each row is empty. -/
theorem not_lights_of_le {column : Nat} (beyond : 4 ≤ column) (inByte : column < 8)
    (digit row : Nat) : lights digit row column = false := by
  unfold lights Sprite.bit
  cases found : glyphs[digit * glyphHeight.toNat + row]? with
  | none => exact Nat.zero_testBit _
  | some byte =>
      have listed : byte ∈ glyphs.toList := Array.mem_toList_iff.mpr (Array.mem_of_getElem? found)
      -- The columns count from the highest bit, so these are the four lowest ones.
      have low : 7 - column < 4 := by omega
      have place : (byte.toNat % 16).testBit (7 - column) =
          (decide (7 - column < 4) && byte.toNat.testBit (7 - column)) :=
        Nat.testBit_mod_two_pow byte.toNat 4 (7 - column)
      rw [mod_sixteen_of_mem_glyphs listed, Nat.zero_testBit, decide_eq_true low,
        Bool.true_and] at place
      exact place.symm

end Font

namespace Memory

/-- Memory still has the font where it is kept when the machine is switched on. -/
def HoldsFont (memory : Memory) : Prop :=
  ∀ place (within : place < Font.glyphs.size),
    memory.read (Font.address.toNat + place) = Font.glyphs[place]

theorem holdsFont_initial : initial.HoldsFont :=
  fun _ within => zero.read_load_add within (by decide)

/-- A block that is copied to a place outside of the font leaves the font alone. -/
theorem HoldsFont.load {memory : Memory} (font : memory.HoldsFont) {address : Nat}
    {block : Array UInt8}
    (apart : address + block.size ≤ Font.address.toNat ∨
      Font.address.toNat + Font.glyphs.size ≤ address) :
    (memory.load address block).HoldsFont := by
  intro place within
  have room := room_le address block.size
  rw [read_load, if_neg (by omega)]
  exact font place within

/-- The bytes of a glyph are read from where it stands. -/
theorem HoldsFont.bit_read {memory : Memory} (font : memory.HoldsFont) {digit row : Nat}
    (isDigit : digit < 16) (inGlyph : row < Font.glyphHeight.toNat) (column : Nat) :
    Sprite.bit (memory.read (Font.address.toNat + digit * Font.glyphHeight.toNat + row)) column =
      Font.lights digit row column := by
  have within : digit * Font.glyphHeight.toNat + row < Font.glyphs.size := by
    change digit * 5 + row < 80
    change row < 5 at inGlyph
    omega
  rw [Nat.add_assoc, font _ within, Font.lights, Array.getElem?_eq_getElem within, Option.getD_some]

end Memory

end ChipEight
