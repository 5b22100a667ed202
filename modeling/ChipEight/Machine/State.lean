import ChipEight.Memory
import ChipEight.Registers
import ChipEight.Screen.Basic

/-!
# The state of a machine

Everything that rewinding restores: registers, memory, picture, the two timers, the
wish to have the picture drawn anew, and a wait for a key.
-/

namespace ChipEight

/-- What a machine remembers between two instructions. -/
structure State where
  registers : Registers
  memory : Memory
  screen : Screen
  delayTimer : UInt8
  soundTimer : UInt8
  /-- Whether the picture may have changed since it was last taken. -/
  redraw : Bool
  /-- The register that waits for a key. -/
  awaiting : Option Digit
  deriving DecidableEq

namespace State

def start (address : UInt16) : State where
  registers := Registers.start address
  memory := Memory.initial
  screen := Screen.dark
  delayTimer := 0
  soundTimer := 0
  redraw := false
  awaiting := none

/-- The instruction word at the program counter: two bytes, the high one first. The second
address is not wrapped around to the start of memory. -/
def word (state : State) : UInt16 :=
  let address := state.registers.counter.toNat
  (state.memory.read address).toUInt16 * 256 + (state.memory.read (address + 1)).toUInt16

/-- The word in a program that was loaded is made of two of its bytes. -/
theorem word_of_loaded {state : State} {before : Memory} {first : Nat} {program : Array UInt8}
    (place : Nat) (loaded : state.memory = before.load first program)
    (here : state.registers.counter.toNat = first + place) (within : place + 1 < program.size)
    (fits : first + program.size ≤ Memory.size) :
    state.word = program[place].toUInt16 * 256 + program[place + 1].toUInt16 := by
  simp only [word, loaded, here, Nat.add_assoc, Memory.read_load_add before _ fits, within,
    Nat.lt_of_succ_lt within]

def advance (state : State) : State :=
  { state with registers := state.registers.advance }

def fetch (state : State) : UInt16 × State :=
  (state.word, state.advance)

def skipIf (state : State) (condition : Bool) : State :=
  if condition then state.advance else state

def jump (state : State) (address : UInt16) : State :=
  { state with registers := { state.registers with counter := address } }

def v (state : State) (x : Digit) : UInt8 :=
  state.registers.read x

def setV (state : State) (x : Digit) (value : UInt8) : State :=
  { state with registers := state.registers.write x value }

def setIndex (state : State) (address : UInt16) : State :=
  { state with registers := { state.registers with index := address } }

def tickDelay (state : State) : State :=
  { state with delayTimer := if state.delayTimer = 0 then 0 else state.delayTimer - 1 }

def tickSound (state : State) : State :=
  { state with soundTimer := if state.soundTimer = 0 then 0 else state.soundTimer - 1 }

def tickTimers (state : State) : State :=
  state.tickDelay.tickSound

end State

end ChipEight
