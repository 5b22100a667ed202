import ChipEight.Screen.Text

/-!
# Pictures read back from what shows them

A texture and a text are both the rows of a picture one after another, and every row takes the same
room. So the place of a pixel is found by counting rows and pixels, and a picture can be read back
from either of them. The test for a dark picture looks at whole rows; it finds what a look at every
pixel, or at every byte of the texture, would find.
-/

namespace ChipEight

section Pieces

variable {Item Part : Type} {pieces : Item → List Part} {size : Nat}

theorem length_flatMap_of_length (uniform : ∀ item, (pieces item).length = size)
    (items : List Item) : (items.flatMap pieces).length = size * items.length := by
  simp only [List.length_flatMap, uniform, List.map_const', List.sum_replicate_nat, Nat.mul_comm]

/-- Where pieces of one size are joined, as many sizes lie before a piece as there are pieces
before it. -/
theorem getElem?_flatMap_of_length (uniform : ∀ item, (pieces item).length = size)
    (items : List Item) (number : Nat) {place : Nat} (within : place < size) :
    (items.flatMap pieces)[size * number + place]? =
      items[number]?.bind fun item => (pieces item)[place]? := by
  induction items generalizing number with
  | nil => rfl
  | cons item later ih =>
      rw [List.flatMap_cons]
      cases number with
      | zero =>
          have inFirst : size * 0 + place < (pieces item).length := by
            rw [uniform]
            omega
          rw [List.getElem?_append_left inFirst, Nat.mul_zero, Nat.zero_add]
          rfl
      | succ number =>
          have place_eq : size * (number + 1) + place = size + (size * number + place) := by
            rw [Nat.mul_succ]
            omega
          have beyond : (pieces item).length ≤ size + (size * number + place) := by
            rw [uniform]
            omega
          rw [place_eq, List.getElem?_append_right beyond, uniform, Nat.add_sub_cancel_left, ih,
            List.getElem?_cons_succ]

end Pieces

theorem Texture.brightness_injective : Function.Injective brightness := by
  intro lit other
  cases lit <;> cases other <;> decide

namespace Screen

theorem mark_injective : Function.Injective mark := by
  intro lit other
  cases lit <;> cases other <;> decide

variable {screen other : Screen} {row column : Nat}

/-- Pictures are equal if their pixels are shown alike, in a way that tells lit from dark. -/
theorem eq_of_shown_alike {Sign : Type} {sign : Bool → Sign} (injective : Function.Injective sign)
    (alike : ∀ row column, row < height → column < width →
      sign (screen.pixel row column) = sign (other.pixel row column)) : screen = other := by
  apply ext_pixel
  intro row column onScreen inRow
  exact injective (alike row column onScreen inRow)

/-- The part of a texture that shows one row. -/
def rowBytes (row : BitVec width) : List UInt8 :=
  (rowPixels row).flatMap fun lit =>
    List.replicate Texture.pixelBytes (Texture.brightness lit)

/-- The line of a text that shows one row. -/
def rowLine (row : BitVec width) : List Char :=
  (rowPixels row).map mark ++ ['\n']

theorem length_rowPixels (row : BitVec width) : (rowPixels row).length = width := by
  rw [rowPixels, List.length_map, List.length_range]

theorem getElem?_rowPixels (row : BitVec width) (inRow : column < width) :
    (rowPixels row)[column]? = some (row.getMsbD column) := by
  rw [rowPixels, List.getElem?_map, List.getElem?_range inRow]
  rfl

theorem length_rowBytes (row : BitVec width) : (rowBytes row).length = Texture.pitch := by
  rw [rowBytes, length_flatMap_of_length (fun _ => List.length_replicate), length_rowPixels,
    Nat.mul_comm]

theorem getElem?_rowBytes (row : BitVec width) (inRow : column < width) {channel : Nat}
    (inPixel : channel < Texture.pixelBytes) :
    (rowBytes row)[Texture.pixelBytes * column + channel]? =
      some (Texture.brightness (row.getMsbD column)) := by
  rw [rowBytes, getElem?_flatMap_of_length (fun _ => List.length_replicate) _ _ inPixel,
    getElem?_rowPixels row inRow, Option.bind_some, List.getElem?_replicate_of_lt inPixel]

theorem length_marks (row : BitVec width) : ((rowPixels row).map mark).length = width := by
  rw [List.length_map, length_rowPixels]

theorem length_rowLine (row : BitVec width) : (rowLine row).length = width + 1 := by
  rw [rowLine, List.length_append, length_marks, List.length_singleton]

theorem getElem?_rowLine (row : BitVec width) (inRow : column < width) :
    (rowLine row)[column]? = some (mark (row.getMsbD column)) := by
  have inMarks : column < ((rowPixels row).map mark).length := by
    rwa [length_marks]
  rw [rowLine, List.getElem?_append_left inMarks, List.getElem?_map, getElem?_rowPixels row inRow]
  rfl

theorem getElem?_rowLine_width (row : BitVec width) : (rowLine row)[width]? = some '\n' := by
  rw [rowLine, List.getElem?_append_right (Nat.le_of_eq (length_marks row)), length_marks,
    Nat.sub_self]
  rfl

theorem getElem?_rows (onScreen : row < height) :
    screen.rows.toList[row]? = some screen.rows[row] := by
  rw [Vector.getElem?_toList, Vector.getElem?_eq_getElem onScreen]

theorem getMsbD_rows (onScreen : row < height) :
    screen.rows[row].getMsbD column = screen.pixel row column := by
  rw [pixel, Vector.getElem?_eq_getElem onScreen, Option.getD_some]

theorem texture_eq (screen : Screen) : screen.texture = screen.rows.toList.flatMap rowBytes :=
  rfl

theorem length_texture (screen : Screen) : screen.texture.length = Texture.pitch * height := by
  rw [texture_eq, length_flatMap_of_length length_rowBytes, Vector.length_toList]

/-- Each of the bytes of a pixel is as bright as the pixel. -/
theorem getElem?_texture (screen : Screen) (onScreen : row < height) (inRow : column < width)
    {channel : Nat} (inPixel : channel < Texture.pixelBytes) :
    screen.texture[Texture.pitch * row + (Texture.pixelBytes * column + channel)]? =
      some (Texture.brightness (screen.pixel row column)) := by
  have within : Texture.pixelBytes * column + channel < Texture.pitch := by
    simp only [Texture.pitch, Texture.pixelBytes, width] at inRow inPixel ⊢
    omega
  rw [texture_eq, getElem?_flatMap_of_length length_rowBytes _ _ within, getElem?_rows onScreen,
    Option.bind_some, getElem?_rowBytes _ inRow inPixel, getMsbD_rows onScreen]

theorem toList_text (screen : Screen) :
    screen.text.toList = screen.rows.toList.flatMap rowLine :=
  String.toList_ofList

theorem length_text (screen : Screen) : screen.text.length = (width + 1) * height := by
  rw [← String.length_toList, toList_text, length_flatMap_of_length length_rowLine,
    Vector.length_toList]

theorem getElem?_text (screen : Screen) (onScreen : row < height) {place : Nat}
    (within : place < width + 1) :
    screen.text.toList[(width + 1) * row + place]? = (rowLine screen.rows[row])[place]? := by
  rw [toList_text, getElem?_flatMap_of_length length_rowLine _ _ within,
    getElem?_rows onScreen, Option.bind_some]

theorem getElem?_text_pixel (screen : Screen) (onScreen : row < height) (inRow : column < width) :
    screen.text.toList[(width + 1) * row + column]? = some (mark (screen.pixel row column)) := by
  rw [getElem?_text screen onScreen (Nat.lt_succ_of_lt inRow), getElem?_rowLine _ inRow,
    getMsbD_rows onScreen]

theorem isDark_iff_pixel (screen : Screen) :
    screen.isDark = true ↔ ∀ row column, screen.pixel row column = false := by
  rw [isDark_iff]
  constructor
  · rintro rfl row column
    exact pixel_dark row column
  · intro allDark
    apply ext_pixel
    intro row column _ _
    rw [allDark, pixel_dark]

/-- The bytes of a texture are those of the pixels on the screen. -/
theorem mem_texture_iff {byte : UInt8} :
    byte ∈ screen.texture ↔
      ∃ row column, row < height ∧ column < width ∧
        Texture.brightness (screen.pixel row column) = byte := by
  constructor
  · intro shown
    rw [texture_eq] at shown
    obtain ⟨word, inRows, inPixels⟩ := List.mem_flatMap.mp shown
    obtain ⟨lit, inWord, copied⟩ := List.mem_flatMap.mp inPixels
    obtain ⟨row, onScreen, rfl⟩ := Vector.mem_iff_getElem.mp (Vector.mem_toList_iff.mp inRows)
    obtain ⟨column, inRow, rfl⟩ := List.mem_map.mp inWord
    refine ⟨row, column, onScreen, List.mem_range.mp inRow, ?_⟩
    rw [← getMsbD_rows onScreen]
    exact (List.eq_of_mem_replicate copied).symm
  · rintro ⟨row, column, onScreen, inRow, rfl⟩
    have first := screen.getElem?_texture onScreen inRow (show 0 < Texture.pixelBytes by decide)
    exact List.mem_of_getElem? first

theorem isDark_iff_texture (screen : Screen) :
    screen.isDark = true ↔ ∀ byte ∈ screen.texture, byte = 0 := by
  constructor
  · intro isDark byte shown
    obtain ⟨row, column, -, -, rfl⟩ := mem_texture_iff.mp shown
    rw [screen.isDark_iff_pixel.mp isDark]
    rfl
  · intro allZero
    rw [isDark_iff]
    apply eq_of_shown_alike Texture.brightness_injective
    intro row column onScreen inRow
    rw [pixel_dark]
    exact allZero _ (mem_texture_iff.mpr ⟨row, column, onScreen, inRow, rfl⟩)

/-- The first byte of every pixel tells whether it is lit. -/
theorem texture_injective : Function.Injective texture := by
  intro screen other same
  apply eq_of_shown_alike Texture.brightness_injective
  intro row column onScreen inRow
  have inPixel : 0 < Texture.pixelBytes := by decide
  apply Option.some.inj
  rw [← screen.getElem?_texture onScreen inRow inPixel, same,
    other.getElem?_texture onScreen inRow inPixel]

theorem text_injective : Function.Injective text := by
  intro screen other same
  apply eq_of_shown_alike mark_injective
  intro row column onScreen inRow
  apply Option.some.inj
  rw [← screen.getElem?_text_pixel onScreen inRow, same, other.getElem?_text_pixel onScreen inRow]

end Screen

/-- A texture, a text and the test for a dark picture agree with the pixels, whatever the picture.
A texture has three bytes and a text one character for each pixel, and each line of a text ends with
a newline. Both tell different pictures apart. A picture is dark if none of its pixels is lit, on
the screen or outside of it. -/
theorem renderings_show_pixels (screen : Screen) :
    screen.texture.length = 6144 ∧
    (∀ (row : Fin 32) (column : Fin 64) (channel : Fin 3),
      screen.texture[192 * row.val + 3 * column.val + channel.val]? =
        some (if screen.pixel row column = true then 255 else 0)) ∧
    screen.text.length = 32 * 65 ∧
    (∀ row : Fin 32,
      (∀ column : Fin 64, screen.text.toList[65 * row.val + column.val]? =
        some (if screen.pixel row column = true then '#' else '.')) ∧
      screen.text.toList[65 * row.val + 64]? = some '\n') ∧
    (screen.isDark = true ↔ ∀ row column, screen.pixel row column = false) ∧
    (screen.isDark = true ↔ ∀ byte ∈ screen.texture, byte = 0) ∧
    ∀ other : Screen,
      (screen.texture = other.texture ↔ screen = other) ∧
      (screen.text = other.text ↔ screen = other) := by
  refine ⟨screen.length_texture, ?texture, screen.length_text, ?text, screen.isDark_iff_pixel,
    screen.isDark_iff_texture, ?different⟩
  case texture =>
    intro row column channel
    rw [Nat.add_assoc]
    exact screen.getElem?_texture row.isLt column.isLt channel.isLt
  case text =>
    intro row
    refine ⟨fun column => screen.getElem?_text_pixel row.isLt column.isLt, ?_⟩
    rw [← Screen.getElem?_rowLine_width screen.rows[row]]
    exact screen.getElem?_text row.isLt (Nat.lt_succ_self _)
  case different =>
    intro other
    exact ⟨⟨fun same => Screen.texture_injective same, congrArg Screen.texture⟩,
      ⟨fun same => Screen.text_injective same, congrArg Screen.text⟩⟩

end ChipEight
