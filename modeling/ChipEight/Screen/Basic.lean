/-!
# Screen

The picture is 64 pixels wide and 32 high, and a pixel is lit or dark. Each row is
a word of 64 bits whose most significant bit is the leftmost pixel. A place outside
the picture is dark and cannot be lit.
-/

namespace ChipEight

abbrev Screen.width : Nat := 64

abbrev Screen.height : Nat := 32

structure Screen where
  /-- The rows, the topmost first. -/
  rows : Vector (BitVec Screen.width) Screen.height
  deriving DecidableEq

namespace Screen

def dark : Screen := ⟨Vector.replicate height 0⟩

def pixel (screen : Screen) (row column : Nat) : Bool :=
  (screen.rows[row]?.getD 0).getMsbD column

/-- The row in which only one column is lit, or none if the column is outside. -/
def column (number : Nat) : BitVec width :=
  BitVec.twoPow width (width - 1) >>> number

/-- Light or darken one pixel; outside the picture nothing happens. -/
def setPixel (screen : Screen) (row number : Nat) (lit : Bool) : Screen :=
  if within : row < height then
    let old := screen.rows[row]
    ⟨screen.rows.set row (if lit then old ||| column number else old &&& ~~~column number)⟩
  else
    screen

def isDark (screen : Screen) : Bool :=
  screen.rows.all (· == 0)

theorem isDark_iff (screen : Screen) : screen.isDark = true ↔ screen = dark := by
  obtain ⟨rows⟩ := screen
  simp only [isDark, dark, Vector.all_eq_true, beq_iff_eq, Screen.mk.injEq]
  constructor
  · intro allZero
    ext place within : 1
    simpa using allZero place within
  · rintro rfl place within
    simp

@[simp]
theorem pixel_dark (row number : Nat) : dark.pixel row number = false := by
  simp only [pixel, dark, Vector.getElem?_replicate]
  split <;> simp

theorem ext_pixel {first second : Screen}
    (equal : ∀ row number, row < height → number < width →
      first.pixel row number = second.pixel row number) : first = second := by
  obtain ⟨firstRows⟩ := first
  obtain ⟨secondRows⟩ := second
  congr 1
  ext row within : 1
  apply BitVec.eq_of_getMsbD_eq
  intro number inside
  simpa [pixel, within] using equal row number within inside

end Screen

end ChipEight
