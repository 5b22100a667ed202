import ChipEight.Keyboard
import ChipEight.Machine.Rom
import ChipEight.Machine.Step

/-!
# Actions

Everything that can be done to a machine, as data. A history of a machine is a list
of actions; running it performs them in order and collects the answers.
-/

namespace ChipEight

/-- Something to do to a machine. -/
inductive Action where
  | step
  | runFrame
  | loadProgram (address : UInt16) (program : Array UInt8)
  | loadRom (source : RomSource)
  | reset
  | rewind
  | tickDelay
  | tickSound
  | tickTimers
  | labelDown (label : Char)
  | labelUp (label : Char)
  | press (byte : UInt8)
  | release (byte : UInt8)
  | cancelWait
  | takeFrame
  | setCounter (address : UInt16)
  | setIndex (address : UInt16)
  | setRegister (number : Nat) (value : UInt8)
  | setDelay (value : UInt8)
  | setSound (value : UInt8)
  | writeMemory (address : Nat) (byte : UInt8)

/-- What a machine answers to an action. -/
inductive Answer where
  | nothing
  /-- What a step, or the last step of a frame, did. -/
  | outcome (outcome : StepOutcome)
  | count (count : Nat)
  | rom (result : Except RomError Nat)
  | done (done : Bool)
  | key (key : Option Key)
  | frame (frame : Option Screen)

namespace Machine

def labelDown (machine : Machine) (label : Char) : Reply (Option Key) :=
  match Keyboard.keyOfLabel? label with
  | some key => (machine.pressKey key).map fun _ => some key
  | none => ⟨none, machine, #[]⟩

def labelUp (machine : Machine) (label : Char) : Reply (Option Key) :=
  match Keyboard.keyOfLabel? label with
  | some key => ⟨some key, { machine with keypad := machine.keypad.set key false }, #[]⟩
  | none => ⟨none, machine, #[]⟩

/-- Set the V register with a number; above VF nothing happens. -/
def setRegister (machine : Machine) (number : Nat) (value : UInt8) : Machine :=
  machine.modifyState fun state => { state with registers := state.registers.set number value }

/-- Replace a byte of memory; past the end nothing happens. -/
def writeMemory (machine : Machine) (address : Nat) (byte : UInt8) : Machine :=
  machine.modifyState fun state => { state with memory := state.memory.write address byte }

def perform (machine : Machine) (action : Action) : Reply Answer :=
  let silent (after : Machine) : Reply Answer := ⟨.nothing, after, #[]⟩
  match action with
  | .step => machine.step.map .outcome
  | .runFrame => machine.runFrame.map .outcome
  | .loadProgram address program => (machine.loadProgram address program).map .count
  | .loadRom source => (machine.loadRom source).map .rom
  | .reset => silent machine.reset
  | .rewind => machine.rewind.map .done
  | .tickDelay => silent (machine.modifyState State.tickDelay)
  | .tickSound => silent (machine.modifyState State.tickSound)
  | .tickTimers => silent machine.tickTimers
  | .labelDown label => (machine.labelDown label).map .key
  | .labelUp label => (machine.labelUp label).map .key
  | .press byte => (machine.press byte).map fun _ => .nothing
  | .release byte => silent (machine.release byte)
  | .cancelWait => machine.cancelWait.map .done
  | .takeFrame => machine.takeFrame.map .frame
  | .setCounter address => silent (machine.modifyState (·.jump address))
  | .setIndex address => silent (machine.modifyState (·.setIndex address))
  | .setRegister number value => silent (machine.setRegister number value)
  | .setDelay value => silent (machine.modifyState fun state => { state with delayTimer := value })
  | .setSound value => silent (machine.modifyState fun state => { state with soundTimer := value })
  | .writeMemory address byte => silent (machine.writeMemory address byte)

def run (machine : Machine) : List Action → Reply (List Answer)
  | [] => ⟨[], machine, #[]⟩
  | action :: later =>
    let first := machine.perform action
    let rest := first.machine.run later
    ⟨first.value :: rest.value, rest.machine, first.notices ++ rest.notices⟩

@[simp]
theorem run_nil (machine : Machine) : machine.run [] = ⟨[], machine, #[]⟩ :=
  rfl

@[simp]
theorem machine_run_cons (machine : Machine) (action : Action) (later : List Action) :
    (machine.run (action :: later)).machine =
      ((machine.perform action).machine.run later).machine :=
  rfl

/-- Running two histories one after the other leaves the machine where running them as one
does. -/
theorem machine_run_append (machine : Machine) (first second : List Action) :
    (machine.run (first ++ second)).machine =
      ((machine.run first).machine.run second).machine := by
  induction first generalizing machine with
  | nil => rfl
  | cons action later ih => exact ih (machine.perform action).machine

end Machine

end ChipEight
