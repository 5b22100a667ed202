import ChipEight.Instruction.Decode
import ChipEight.Instruction.Execute
import ChipEight.Machine.Basic

/-!
# Steps and frames

A step runs one instruction. A machine that waits for a key takes no step, and a word
that is no instruction is passed over.

A frame is the time between two timer ticks: as many steps as the settings say, or
fewer if a wait begins, and then one tick.
-/

namespace ChipEight

/-- What a step did. -/
inductive StepOutcome where
  | executed (word : UInt16)
  | unknown (word : UInt16)
  | awaitingKey (register : Digit)
  deriving DecidableEq, Repr

def StepOutcome.isWait : StepOutcome → Bool
  | .awaitingKey _ => true
  | .executed _ | .unknown _ => false

namespace Machine

def fetchNotice (state : State) : Notice :=
  .fetched state.word state.registers.v state.registers.index state.registers.counter

/-- Run the word at the program counter, whether or not a key is awaited. -/
def runWord (machine : Machine) : Reply StepOutcome :=
  let word := machine.state.word
  let address := machine.state.registers.counter
  let fetched := fetchNotice machine.state
  let kept := machine.remember
  match Instruction.ofWord? word with
  | none =>
    ⟨.unknown word, kept.modifyState State.advance, #[fetched, .unknownWord word address]⟩
  | some instruction =>
    let effect :=
      instruction.execute machine.settings machine.keypad machine.random machine.state.advance
    let outcome :=
      match effect.state.awaiting with
      | some register => .awaitingKey register
      | none => .executed word
    ⟨outcome, { kept with state := effect.state, random := effect.random },
      #[fetched] ++ effect.notice.toArray⟩

def step (machine : Machine) : Reply StepOutcome :=
  match machine.state.awaiting with
  | some register => ⟨.awaitingKey register, machine, #[]⟩
  | none => machine.runWord

/-- Take up to `count` more steps, until a wait begins. -/
def stepOn : Nat → Reply StepOutcome → Reply StepOutcome
  | 0, reply => reply
  | count + 1, reply =>
    if reply.value.isWait then reply else stepOn count (reply.andThen step)

def tickTimers (machine : Machine) : Machine :=
  machine.modifyState State.tickTimers

/-- Run one frame. The answer is that of its last step. -/
def runFrame (machine : Machine) : Reply StepOutcome :=
  let reply := stepOn (machine.settings.cyclesPerTick.toNat - 1) machine.step
  { reply with machine := reply.machine.tickTimers }

end Machine

end ChipEight
