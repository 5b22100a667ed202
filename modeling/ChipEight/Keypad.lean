import ChipEight.Digit

/-!
# Keypad

Sixteen keys, numbered by the hexadecimal digit printed on them. Programs ask for a
key by a byte: a byte above fifteen names no key, and such a key is never down.
-/

namespace ChipEight

abbrev Key := Digit

/-- Which keys are down. -/
structure Keypad where
  keys : Vector Bool 16
  deriving DecidableEq

namespace Keypad

def released : Keypad := ⟨Vector.replicate 16 false⟩

def set (pad : Keypad) (key : Key) (down : Bool) : Keypad :=
  ⟨pad.keys.setIfInBounds key.val down⟩

def holds (pad : Keypad) (key : Key) : Bool :=
  pad.keys[key.val]?.getD false

def press (pad : Keypad) (byte : UInt8) : Keypad :=
  match Digit.ofByte? byte with
  | some key => pad.set key true
  | none => pad

def release (pad : Keypad) (byte : UInt8) : Keypad :=
  match Digit.ofByte? byte with
  | some key => pad.set key false
  | none => pad

def isDown (pad : Keypad) (byte : UInt8) : Bool :=
  match Digit.ofByte? byte with
  | some key => pad.holds key
  | none => false

@[simp]
theorem holds_set (pad : Keypad) (key other : Key) (down : Bool) :
    (pad.set key down).holds other = if other = key then down else pad.holds other := by
  simp only [set, holds, Vector.getElem?_setIfInBounds, Fin.ext_iff]
  by_cases same : key.val = other.val
  · simp [same]
  · simp [same, Ne.symm same]

end Keypad

end ChipEight
