import ChipEight.Screen.Sprite

/-!
# Pixels of placed sprites

Rows of the picture are words of 64 bits, and sprites are drawn with shifts of such words. This
file says what the shifts mean for single pixels: which pixels a placed sprite lights, and when two
pictures have a lit pixel in common.
-/

namespace ChipEight

namespace Sprite

/-- The bit of a sprite byte that belongs to one of its eight pixels, counted from the left. -/
def bit (byte : UInt8) (place : Nat) : Bool :=
  byte.toNat.testBit (7 - place)

theorem getMsbD_row (byte : UInt8) (left column : Nat) :
    (row byte left).getMsbD column =
      (decide (left ≤ column ∧ column < left + 8 ∧ column < Screen.width) &&
        bit byte (column - left)) := by
  simp only [row, bit, Screen.width, BitVec.getMsbD_ushiftRight, BitVec.getMsbD_shiftLeft,
    BitVec.getMsbD_setWidth]
  simp only [BitVec.getMsbD, BitVec.getLsbD]
  by_cases within : left ≤ column ∧ column < left + 8 ∧ column < 64
  · have notBefore : ¬ column < left := by omega
    have inByte : column - left < 8 := by omega
    have place : column - left + 56 + 8 - 64 = column - left := by omega
    simp [within, notBefore, inByte, place]
  · simp [within]
    omega

/-- The pixels of a placed sprite: those of its bytes, as far as they are on the screen. -/
theorem pixel_place (bytes : List UInt8) (top left row column : Nat) :
    (place bytes top left).pixel row column =
      (decide (top ≤ row ∧ row < Screen.height ∧ left ≤ column ∧ column < left + 8 ∧
          column < Screen.width) &&
        bit (bytes[row - top]?.getD 0) (column - left)) := by
  simp only [Screen.pixel, place, Vector.getElem?_ofFn]
  by_cases inside : row < Screen.height
  · by_cases below : top ≤ row
    · simp [inside, below, getMsbD_row]
    · simp [inside, below]
  · simp [inside]

end Sprite

namespace Screen

theorem getMsbD_column {number : Nat} (inRow : number < width) (other : Nat) :
    (column number).getMsbD other = decide (other = number) := by
  simp only [width] at inRow
  simp only [column, width, BitVec.getMsbD_ushiftRight, BitVec.getMsbD_twoPow]
  by_cases same : other = number
  · subst same
    simp [inRow]
  · simp [same]
    omega

/-- Nothing is lit outside of the picture. -/
theorem pixel_of_outside (screen : Screen) {row number : Nat}
    (outside : ¬ (row < height ∧ number < width)) : screen.pixel row number = false := by
  unfold pixel
  by_cases onScreen : row < height
  · have beyond : width ≤ number := Nat.le_of_not_lt fun inRow => outside ⟨onScreen, inRow⟩
    exact BitVec.getMsbD_of_ge _ _ beyond
  · rw [Vector.getElem?_eq_none (Nat.le_of_not_lt onScreen)]
    exact BitVec.getMsbD_zero

/-- Setting a pixel of the screen sets that one and no other. -/
theorem pixel_setPixel (screen : Screen) {row number : Nat} (onScreen : row < height)
    (inRow : number < width) (lit : Bool) (other column : Nat) :
    (screen.setPixel row number lit).pixel other column =
      if other = row ∧ column = number then lit else screen.pixel other column := by
  simp only [setPixel, dif_pos onScreen, pixel, Vector.getElem?_set]
  by_cases same : row = other
  · subst same
    have old : screen.rows[row]? = some screen.rows[row] := Vector.getElem?_eq_getElem onScreen
    by_cases here : column = number
    · subst here
      cases lit <;> simp [getMsbD_column inRow, inRow]
    · have inWord : screen.rows[row].getMsbD column = true → column < width :=
        BitVec.lt_of_getMsbD
      cases lit with
      | true => simp [old, getMsbD_column inRow, here]
      | false => simpa [old, getMsbD_column inRow, here] using inWord
  · simp [same, Ne.symm same]

/-- Two masks invert a picture in either order. -/
theorem invert_right_comm (screen first second : Screen) :
    (screen.invert first).invert second = (screen.invert second).invert first := by
  apply ext_pixel
  intro row column _ _
  simp only [pixel_invert]
  exact Bool.xor_right_comm ..

theorem exists_getMsbD_of_ne_zero {size : Nat} {word : BitVec size} (nonzero : word ≠ 0) :
    ∃ column, column < size ∧ word.getMsbD column = true := by
  apply Classical.byContradiction
  intro none
  apply nonzero
  apply BitVec.eq_of_getMsbD_eq
  intro column inside
  have dark : ¬ word.getMsbD column = true := fun lit => none ⟨column, inside, lit⟩
  simpa using dark

/-- Two pictures meet if there is a pixel that is lit in both of them. -/
theorem meets_iff (screen mask : Screen) :
    screen.meets mask = true ↔
      ∃ row column, row < height ∧ column < width ∧
        screen.pixel row column = true ∧ mask.pixel row column = true := by
  simp only [meets, Vector.any_eq_true, Vector.getElem_zipWith, bne_iff_ne, pixel]
  constructor
  · rintro ⟨row, inside, common⟩
    obtain ⟨column, within, lit⟩ := exists_getMsbD_of_ne_zero common
    refine ⟨row, column, inside, within, ?_⟩
    simpa [inside] using lit
  · rintro ⟨row, column, inside, within, first, second⟩
    refine ⟨row, inside, ?_⟩
    intro nothing
    have lit : (screen.rows[row] &&& mask.rows[row]).getMsbD column = true := by
      simpa [inside] using And.intro first second
    rw [nothing] at lit
    simp at lit

end Screen

end ChipEight
