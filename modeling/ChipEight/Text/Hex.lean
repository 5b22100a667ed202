/-!
# Hexadecimal text

Numbers in messages are written in upper-case hexadecimal with a least number of
digits. A number that needs more digits than that is written in full.
-/

namespace ChipEight.Text

/-- The upper-case hexadecimal digits of a number, with zeros in front up to `width`. -/
def hexDigits (width number : Nat) : List Char :=
  ((Nat.toDigits 16 number).map Char.toUpper).leftpad width '0'

def hex (width number : Nat) : String :=
  String.ofList (hexDigits width number)

end ChipEight.Text
