import ChipEight.Proofs.Instruction.Calls
import ChipEight.Proofs.Instruction.Words
import ChipEight.Proofs.Machine.Picture

/-!
# Calls in progress

The return addresses of a machine are the calls in progress. A step enters at most one call or
leaves at most one; no key, timer, load or setting of a register enters or leaves any.
-/

namespace ChipEight.Machine

/-- The return addresses of the calls in progress, the newest first. -/
def calls (machine : Machine) : List UInt16 := machine.state.registers.stack

/-- The ways in which a step changes the calls in progress. -/
inductive CallStep (machine : Machine) (reply : Reply StepOutcome) : Prop where
  | keeps (same : reply.machine.calls = machine.calls)
  | enters
      (room : ∀ most, machine.settings.stackLimit = some most → machine.calls.length < most)
      (pushed : reply.machine.calls = (machine.state.registers.counter + 2) :: machine.calls)
  | leaves (executed : reply.value = .executed 0x00EE)
      (popped : machine.calls = reply.machine.state.registers.counter :: reply.machine.calls)

variable (machine : Machine)

theorem callStep_step : CallStep machine machine.step := by
  have stepped := machine.stepped_step
  generalize machine.step = reply at stepped ⊢
  cases stepped with
  | waits => exact .keeps rfl
  | passes => exact .keeps rfl
  | @runs instruction effect free known executed =>
      have change := Instruction.callChange_execute machine.settings machine.keypad machine.random
        machine.state.advance instruction
      have waits := Instruction.awaiting_execute machine.settings machine.keypad machine.random
        machine.state.advance instruction
      rw [← executed] at change waits
      cases change with
      | keeps same => exact .keeps same
      | enters accepts pushed => exact .enters accepts.room pushed
      | leaves popped =>
          refine .leaves ?_ popped
          have ran : effect.state.awaiting = none := by
            rcases waits with same | ⟨x, leaves⟩
            · exact same.trans free
            · cases leaves
          have word : machine.state.word = 0x00EE := (Instruction.toWord_of_ofWord? known).symm
          simp only [StepOutcome.ofState, ran, word]

theorem calls_pressKey (key : Key) : (machine.pressKey key).machine.calls = machine.calls := by
  unfold pressKey
  cases machine.state.awaiting <;> rfl

theorem calls_press (byte : UInt8) : (machine.press byte).machine.calls = machine.calls := by
  unfold press
  cases Digit.ofByte? byte with
  | none => rfl
  | some key => exact machine.calls_pressKey key

theorem calls_labelDown (label : Char) :
    (machine.labelDown label).machine.calls = machine.calls := by
  unfold labelDown
  cases Keyboard.keyOfLabel? label with
  | none => rfl
  | some key => exact machine.calls_pressKey key

theorem calls_labelUp (label : Char) : (machine.labelUp label).machine.calls = machine.calls := by
  unfold labelUp
  cases Keyboard.keyOfLabel? label <;> rfl

theorem calls_cancelWait : machine.cancelWait.machine.calls = machine.calls := by
  unfold cancelWait
  cases machine.state.awaiting <;> rfl

theorem calls_loadRom (source : RomSource) :
    (machine.loadRom source).machine.calls = machine.calls := by
  cases source with
  | broken => rfl
  | complete bytes =>
      unfold loadRom
      dsimp only
      split <;> rfl

@[simp]
theorem machine_perform_step : (machine.perform .step).machine = machine.step.machine :=
  rfl

/-- Edits leave the calls in progress alone. -/
theorem calls_perform {action : Action} (edits : action.edits = true) :
    (machine.perform action).machine.calls = machine.calls := by
  cases action with
  | step | runFrame | rewind | reset | takeFrame => cases edits
  | loadRom source => exact machine.calls_loadRom source
  | labelDown label => exact machine.calls_labelDown label
  | labelUp label => exact machine.calls_labelUp label
  | press byte => exact machine.calls_press byte
  | cancelWait => exact machine.calls_cancelWait
  | _ => rfl

theorem calls_run {actions : List Action} (edits : ∀ action ∈ actions, action.edits = true) :
    (machine.run actions).machine.calls = machine.calls := by
  apply run_preserves (fun after => after.calls = machine.calls) _ rfl
  intro action member after same
  rw [after.calls_perform (edits action member), same]

theorem calls_takeFrame : machine.takeFrame.machine.calls = machine.calls := by
  unfold takeFrame
  cases machine.state.redraw <;> rfl

section

variable {machine} (free : machine.state.awaiting = none)

include free

theorem state_step_of_call (family : Word.family machine.state.word = 0x2) :
    machine.step.machine.state =
      (Instruction.enterCall machine.settings.stackLimit machine.state.advance
        (Word.address machine.state.word)).1 := by
  have known : Instruction.ofWord? machine.state.word =
      some (.call (Word.address machine.state.word)) := by
    simp only [Instruction.ofWord?, family]
  rw [state_step_of_known free known]
  rfl

theorem state_step_of_accepted (family : Word.family machine.state.word = 0x2)
    (accepts : Instruction.Accepts machine.settings.stackLimit machine.state.advance
      (Word.address machine.state.word)) :
    machine.step.machine.state =
      { machine.state with
        registers := { machine.state.registers with
          counter := Word.address machine.state.word
          stack := (machine.state.registers.counter + 2) :: machine.calls } } := by
  rw [state_step_of_call free family, Instruction.enterCall_of_accepts accepts]
  rfl

theorem state_step_of_refused (family : Word.family machine.state.word = 0x2)
    (refused : ¬ Instruction.Accepts machine.settings.stackLimit machine.state.advance
      (Word.address machine.state.word)) :
    machine.step.machine.state = machine.state.advance := by
  rw [state_step_of_call free family, Instruction.enterCall_of_refused refused]

theorem state_step_of_leave (word : machine.state.word = 0x00EE) :
    machine.step.machine.state = (Instruction.leaveCall machine.state.advance).1 := by
  have known : Instruction.ofWord? machine.state.word = some .leave := by
    rw [word]
    rfl
  rw [state_step_of_known free known]
  rfl

theorem state_step_of_return (word : machine.state.word = 0x00EE) {back : UInt16}
    {outer : List UInt16} (inProgress : machine.calls = back :: outer) :
    machine.step.machine.state =
      { machine.state with
        registers := { machine.state.registers with counter := back, stack := outer } } := by
  have popped : machine.state.advance.registers.stack = back :: outer := inProgress
  rw [state_step_of_leave free word, Instruction.leaveCall_of_cons popped]
  rfl

theorem state_step_of_empty_return (word : machine.state.word = 0x00EE)
    (nothing : machine.calls = []) : machine.step.machine.state = machine.state.advance := by
  have empty : machine.state.advance.registers.stack = [] := nothing
  rw [state_step_of_leave free word, Instruction.leaveCall_of_nil empty]

end

end ChipEight.Machine
