import ChipEight.Screen.Texture

/-!
# Pictures as text

A picture is written as one line for each row, a `#` for a lit pixel and a `.` for a
dark one, each line ended by a newline.
-/

namespace ChipEight.Screen

def mark (lit : Bool) : Char :=
  if lit then '#' else '.'

def textCharacters (screen : Screen) : List Char :=
  screen.rows.toList.flatMap fun row => (rowPixels row).map mark ++ ['\n']

def text (screen : Screen) : String :=
  String.ofList screen.textCharacters

end ChipEight.Screen
