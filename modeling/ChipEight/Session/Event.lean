import ChipEight.Keyboard

/-!
# Events

What a window tells a session while it runs.
-/

namespace ChipEight.Session

inductive Event where
  | quit
  /-- A key went down, or, if it is a repetition, stayed down for a while. The position is
  missing for a key without one. -/
  | keyDown (code : Option Keyboard.ScanCode) (repeated : Bool)
  | keyUp (code : Option Keyboard.ScanCode)
  | other
  deriving DecidableEq, Repr

end ChipEight.Session
