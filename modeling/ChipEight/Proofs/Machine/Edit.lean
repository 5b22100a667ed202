import ChipEight.Machine.Action

/-!
# Edits

Most actions on a machine neither run an instruction nor go back: keys, timers, loads,
registers that are set from outside, a wait that is given up. None of them touches the
past states, the random bytes or the picture.
-/

namespace ChipEight

def Action.edits : Action → Bool
  | .step | .runFrame | .rewind | .reset | .takeFrame => false
  | _ => true

namespace Machine

/-- What an edit leaves alone. -/
structure Edited (before after : Machine) : Prop where
  settings_eq : after.settings = before.settings
  past_eq : after.past = before.past
  random_eq : after.random = before.random
  screen_eq : after.state.screen = before.state.screen
  redraw_eq : after.state.redraw = before.state.redraw

theorem Edited.refl (machine : Machine) : Edited machine machine :=
  ⟨rfl, rfl, rfl, rfl, rfl⟩

theorem Edited.trans {first second third : Machine} (earlier : first.Edited second)
    (later : second.Edited third) : first.Edited third where
  settings_eq := later.settings_eq.trans earlier.settings_eq
  past_eq := later.past_eq.trans earlier.past_eq
  random_eq := later.random_eq.trans earlier.random_eq
  screen_eq := later.screen_eq.trans earlier.screen_eq
  redraw_eq := later.redraw_eq.trans earlier.redraw_eq

theorem edited_keypad (machine : Machine) (keypad : Keypad) :
    Edited machine { machine with keypad := keypad } :=
  ⟨rfl, rfl, rfl, rfl, rfl⟩

theorem edited_pressKey (machine : Machine) (key : Key) :
    Edited machine (machine.pressKey key).machine := by
  unfold pressKey
  cases machine.state.awaiting <;> exact ⟨rfl, rfl, rfl, rfl, rfl⟩

theorem edited_press (machine : Machine) (byte : UInt8) :
    Edited machine (machine.press byte).machine := by
  unfold press
  cases Digit.ofByte? byte with
  | none => exact .refl machine
  | some key => exact machine.edited_pressKey key

theorem edited_labelDown (machine : Machine) (label : Char) :
    Edited machine (machine.labelDown label).machine := by
  unfold labelDown
  cases Keyboard.keyOfLabel? label with
  | none => exact .refl machine
  | some key => exact machine.edited_pressKey key

theorem edited_labelUp (machine : Machine) (label : Char) :
    Edited machine (machine.labelUp label).machine := by
  unfold labelUp
  cases Keyboard.keyOfLabel? label with
  | none => exact .refl machine
  | some key => exact machine.edited_keypad _

theorem edited_cancelWait (machine : Machine) :
    Edited machine machine.cancelWait.machine := by
  unfold cancelWait
  cases machine.state.awaiting <;> exact ⟨rfl, rfl, rfl, rfl, rfl⟩

theorem edited_tickTimers (machine : Machine) : Edited machine machine.tickTimers :=
  ⟨rfl, rfl, rfl, rfl, rfl⟩

theorem edited_loadProgram (machine : Machine) (address : UInt16) (program : Array UInt8) :
    Edited machine (machine.loadProgram address program).machine :=
  ⟨rfl, rfl, rfl, rfl, rfl⟩

theorem edited_loadRom (machine : Machine) (source : RomSource) :
    Edited machine (machine.loadRom source).machine := by
  cases source with
  | broken => exact .refl machine
  | complete bytes =>
      by_cases tooLarge : Memory.size - machine.settings.programStart.toNat < bytes.size
      · simpa only [loadRom, tooLarge, if_true] using Edited.refl machine
      · simpa only [loadRom, tooLarge, if_false] using machine.edited_loadProgram _ bytes

theorem edited_perform (machine : Machine) {action : Action} (edits : action.edits = true) :
    Edited machine (machine.perform action).machine := by
  cases action with
  | step | runFrame | rewind | reset | takeFrame => cases edits
  | loadRom source => exact machine.edited_loadRom source
  | labelDown label => exact machine.edited_labelDown label
  | labelUp label => exact machine.edited_labelUp label
  | press byte => exact machine.edited_press byte
  | release byte => exact machine.edited_keypad _
  | cancelWait => exact machine.edited_cancelWait
  | _ => exact ⟨rfl, rfl, rfl, rfl, rfl⟩

end Machine

end ChipEight
