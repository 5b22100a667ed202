import ChipEight.Machine.State
import ChipEight.Screen.Sprite

/-!
# Transfers between registers, memory and the picture

The index register says where in memory a transfer starts. The addresses after it
are not wrapped around, so a transfer that runs past the end of memory reads zeros
there and loses what it writes; the index register itself wraps around at 16 bits.
-/

namespace ChipEight.State

def target (state : State) : Nat :=
  state.registers.index.toNat

/-- Draw a sprite of `height` bytes from memory. The registers name its upper left corner,
which is brought onto the screen; the flag tells whether a lit pixel was darkened. -/
def draw (state : State) (x y height : Digit) : State :=
  let bytes := (List.range height.val).map fun place => state.memory.read (state.target + place)
  let sprite :=
    Sprite.place bytes ((state.v y).toNat % Screen.height) ((state.v x).toNat % Screen.width)
  { state with
    screen := state.screen.invert sprite
    registers := state.registers.setFlag (state.screen.meets sprite)
    redraw := true }

def decimalDigits (value : UInt8) : Array UInt8 :=
  #[value / 100 % 10, value / 10 % 10, value % 10]

def storeDecimal (state : State) (x : Digit) : State :=
  { state with memory := state.memory.load state.target (decimalDigits (state.v x)) }

def passRegisters (state : State) (last : Digit) : State :=
  state.setIndex (state.registers.index + UInt16.ofNat (last.val + 1))

/-- Store the registers from V0 to a last one, and move the index register past them. -/
def spill (state : State) (last : Digit) : State :=
  let block := state.registers.v.toArray.extract 0 (last.val + 1)
  { state with memory := state.memory.load state.target block }.passRegisters last

/-- Load the registers from V0 to a last one, and move the index register past them. -/
def fill (state : State) (last : Digit) : State :=
  let values := Vector.ofFn fun x : Digit =>
    if x ≤ last then state.memory.read (state.target + x.val) else state.v x
  { state with registers := { state.registers with v := values } }.passRegisters last

end ChipEight.State
