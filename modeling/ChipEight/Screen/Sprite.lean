import ChipEight.Screen.Basic

/-!
# Sprites

A sprite is a column of bytes, each one a row of eight pixels with the most
significant bit on the left. Placed somewhere on a dark screen it is a picture of
its own, cut off at the right and lower edges. Drawing inverts the pixels that the
placed sprite lights, and reports whether one of them was lit before.
-/

namespace ChipEight

namespace Sprite

/-- One sprite row as a screen row, its left pixel at a column. Pixels pushed over
the right edge are gone. -/
def row (byte : UInt8) (left : Nat) : BitVec Screen.width :=
  (byte.toBitVec.setWidth Screen.width <<< 56) >>> left

/-- The picture of a sprite on a dark screen with its upper left corner at a row and
a column. -/
def place (bytes : List UInt8) (top left : Nat) : Screen :=
  ⟨Vector.ofFn fun number =>
    if top ≤ number.val then row (bytes[number.val - top]?.getD 0) left else 0⟩

end Sprite

namespace Screen

/-- The picture whose pixels are lit where exactly one of two pictures is. -/
def invert (screen mask : Screen) : Screen :=
  ⟨Vector.zipWith (· ^^^ ·) screen.rows mask.rows⟩

/-- Whether some pixel is lit in both of two pictures. -/
def meets (screen mask : Screen) : Bool :=
  (Vector.zipWith (· &&& ·) screen.rows mask.rows).any (· != 0)

@[simp]
theorem pixel_invert (screen mask : Screen) (row number : Nat) :
    (screen.invert mask).pixel row number =
      (screen.pixel row number ^^ mask.pixel row number) := by
  simp only [pixel, invert]
  by_cases within : row < height
  · simp [within]
  · simp [Vector.getElem?_eq_none (Nat.le_of_not_lt within)]

theorem invert_invert (screen mask : Screen) : (screen.invert mask).invert mask = screen := by
  apply ext_pixel
  intro row number _ _
  simp

end Screen

end ChipEight
