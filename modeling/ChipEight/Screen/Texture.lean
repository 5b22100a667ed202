import ChipEight.Screen.Basic

/-!
# Textures

A window is given its picture as a texture: the rows one after another, three equal
bytes for a pixel (red, green and blue), 255 for a lit one and 0 for a dark one.
-/

namespace ChipEight

namespace Texture

abbrev pixelBytes : Nat := 3

/-- Bytes from the start of one row to the start of the next. -/
abbrev pitch : Nat := Screen.width * pixelBytes

def brightness (lit : Bool) : UInt8 :=
  if lit then 255 else 0

end Texture

namespace Screen

def rowPixels (row : BitVec width) : List Bool :=
  (List.range width).map row.getMsbD

/-- The bytes of the texture that shows a picture. -/
def texture (screen : Screen) : List UInt8 :=
  screen.rows.toList.flatMap fun row =>
    (rowPixels row).flatMap fun lit =>
      List.replicate Texture.pixelBytes (Texture.brightness lit)

end Screen

end ChipEight
