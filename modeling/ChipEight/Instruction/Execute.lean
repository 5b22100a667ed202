import ChipEight.Instruction.Arithmetic
import ChipEight.Instruction.Basic
import ChipEight.Instruction.Transfer
import ChipEight.Font
import ChipEight.Keypad
import ChipEight.Notice
import ChipEight.Random.Stream

/-!
# Execution

What each instruction does to the state of the machine. When it runs, the program
counter is already past it. Beside the state an instruction may look at the settings
and the keypad, draw from the random bytes, and leave one notice.
-/

namespace ChipEight

/-- What running an instruction leads to. -/
structure Effect where
  state : State
  random : Random.Generator
  notice : Option Notice

namespace Instruction

/-- A return without a call in progress does nothing. -/
def leaveCall (state : State) : State × Option Notice :=
  match state.registers.pop? with
  | some (address, registers) => ({ state with registers := registers }.jump address, none)
  | none => (state, some .emptyReturn)

def reachedLimit? (limit : Option Nat) (state : State) : Option Nat :=
  limit.filter (· ≤ state.registers.stack.length)

/-- A call goes to an even address only, and only while there is room for it. -/
def enterCall (limit : Option Nat) (state : State) (address : UInt16) :
    State × Option Notice :=
  if address % 2 = 1 then
    (state, some (.oddCall address))
  else
    match reachedLimit? limit state with
    | some most => (state, some (.fullStack address most))
    | none =>
      let registers := state.registers.push state.registers.counter
      ({ state with registers := registers }.jump address, none)

def execute (instruction : Instruction) (settings : Settings) (keypad : Keypad)
    (random : Random.Generator) (state : State) : Effect :=
  let quiet (after : State) : Effect := ⟨after, random, none⟩
  let told (after : State × Option Notice) : Effect := ⟨after.1, random, after.2⟩
  let computed (after : Registers) : Effect := quiet { state with registers := after }
  match instruction with
  | .clear => quiet { state with screen := Screen.dark, redraw := true }
  | .leave => told (leaveCall state)
  | .jump address => quiet (state.jump address)
  | .call address => told (enterCall settings.stackLimit state address)
  | .skipIfValue x value => quiet (state.skipIf (state.v x == value))
  | .skipUnlessValue x value => quiet (state.skipIf (state.v x != value))
  | .skipIfEqual x y => quiet (state.skipIf (state.v x == state.v y))
  | .skipUnlessEqual x y => quiet (state.skipIf (state.v x != state.v y))
  | .put x value => quiet (state.setV x value)
  | .increase x value => quiet (state.setV x (state.v x + value))
  | .copy x y => quiet (state.setV x (state.v y))
  | .or x y => quiet (state.setV x (state.v x ||| state.v y))
  | .and x y => quiet (state.setV x (state.v x &&& state.v y))
  | .xor x y => quiet (state.setV x (state.v x ^^^ state.v y))
  | .add x y => computed (state.registers.add x y)
  | .subtract x y => computed (state.registers.subtract x y)
  | .shiftRight x y => computed (state.registers.shiftRight settings.shiftRoles x y)
  | .subtractReversed x y => computed (state.registers.subtractReversed settings.shiftRoles x y)
  | .shiftLeft x y => computed (state.registers.shiftLeft settings.shiftRoles x y)
  | .point address => quiet (state.setIndex address)
  | .jumpBeyond address => quiet (state.jump ((state.v (Digit.ofNat 0)).toUInt16 + address))
  | .random x mask => ⟨state.setV x (random.next &&& mask), random.advance, none⟩
  | .draw x y height => quiet (state.draw x y height)
  | .skipIfDown x => quiet (state.skipIf (keypad.isDown (state.v x)))
  | .skipUnlessDown x => quiet (state.skipIf (!keypad.isDown (state.v x)))
  | .readDelay x => quiet (state.setV x state.delayTimer)
  | .awaitKey x => told ({ state with awaiting := some x }, some (.waitBegun x))
  | .setDelay x => quiet { state with delayTimer := state.v x }
  | .setSound x => quiet { state with soundTimer := state.v x }
  | .pointBeyond x => quiet (state.setIndex (state.registers.index + (state.v x).toUInt16))
  | .pointToGlyph x =>
    quiet (state.setIndex (Font.address + (state.v x).toUInt16 * Font.glyphHeight))
  | .storeDecimal x => quiet (state.storeDecimal x)
  | .spill last => quiet (state.spill last)
  | .fill last => quiet (state.fill last)

end Instruction

end ChipEight
