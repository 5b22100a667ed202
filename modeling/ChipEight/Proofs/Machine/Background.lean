import ChipEight.Proofs.Machine.Erasure
import ChipEight.Proofs.Machine.Waiting

/-!
# What stands behind a state

Behind its state a machine has settings and a past. Of these, actions that run nothing and do not
go back look at the place where programs start and at nothing else, so they overlook whatever else
is changed there.
-/

namespace ChipEight.Machine

/-- The machine with a change to its settings and one to its past. -/
def recast (change : Settings → Settings) (changePast : List State → List State)
    (machine : Machine) : Machine :=
  { machine with settings := change machine.settings, past := changePast machine.past }

/-- Changes that do nothing more when made twice, and leave alone where programs start. -/
structure Recasts (change : Settings → Settings) (changePast : List State → List State) :
    Prop where
  settings_twice : ∀ settings, change (change settings) = change settings
  past_twice : ∀ past, changePast (changePast past) = changePast past
  programStart_eq : ∀ settings, (change settings).programStart = settings.programStart

variable {change : Settings → Settings} {changePast : List State → List State}
  (recasts : Recasts change changePast)

include recasts

/-- Whether a machine is changed before its state and its keypad are replaced makes no difference
if it is changed after that. -/
theorem Recasts.edit (machine : Machine) (state : State) (keypad : Keypad) :
    recast change changePast
        { machine.recast change changePast with state := state, keypad := keypad } =
      recast change changePast { machine with state := state, keypad := keypad } := by
  simp only [recast, recasts.settings_twice, recasts.past_twice]

theorem Recasts.pressKey (key : Key) :
    Overlooks (recast change changePast) fun machine => machine.pressKey key := by
  intro machine
  simp only [Machine.pressKey, recast]
  cases machine.state.awaiting <;> exact erased_eq_iff.mpr ⟨rfl, recasts.edit machine _ _, rfl⟩

theorem Recasts.cancelWait : Overlooks (recast change changePast) Machine.cancelWait := by
  intro machine
  simp only [Machine.cancelWait, recast]
  cases machine.state.awaiting <;> exact erased_eq_iff.mpr ⟨rfl, recasts.edit machine _ _, rfl⟩

theorem Recasts.takeFrame : Overlooks (recast change changePast) Machine.takeFrame := by
  intro machine
  cases offers : machine.state.redraw <;>
    simp only [Machine.takeFrame, recast, offers] <;>
    exact erased_eq_iff.mpr ⟨rfl, recasts.edit machine _ _, rfl⟩

theorem Recasts.loadRom (source : RomSource) :
    Overlooks (recast change changePast) fun machine => machine.loadRom source := by
  intro machine
  cases source with
  | broken => exact erased_eq_iff.mpr ⟨rfl, recasts.edit machine _ _, rfl⟩
  | complete bytes =>
      have place : (machine.recast change changePast).settings.programStart =
          machine.settings.programStart := recasts.programStart_eq machine.settings
      simp only [Machine.loadRom, place]
      split
      · exact erased_eq_iff.mpr ⟨rfl, recasts.edit machine _ _, rfl⟩
      · exact erased_eq_iff.mpr ⟨rfl, recasts.edit machine _ _, rfl⟩

/-- Only steps, frames and going back look at the settings and the past, but for the place where
programs start. -/
theorem Recasts.perform {action : Action} (idle : action.runsProgram = false)
    (stays : action ≠ .rewind) :
    Overlooks (recast change changePast) fun machine => machine.perform action := by
  have twice (machine : Machine) : recast change changePast (machine.recast change changePast) =
      machine.recast change changePast := recasts.edit machine _ _
  cases action with
  | step | runFrame => cases idle
  | rewind => exact absurd rfl stays
  | loadRom source => exact (recasts.loadRom source).map _
  | cancelWait => exact recasts.cancelWait.map _
  | takeFrame => exact recasts.takeFrame.map _
  | press byte => exact (Overlooks.press recasts.pressKey twice byte).map _
  | labelDown label => exact (Overlooks.labelDown recasts.pressKey twice label).map _
  | labelUp label =>
      intro machine
      simp only [Machine.perform, labelUp]
      cases Keyboard.keyOfLabel? label <;>
        exact erased_eq_iff.mpr ⟨rfl, recasts.edit machine _ _, rfl⟩
  | reset =>
      intro machine
      simp only [Machine.perform, reset, recast, Reply.erased, recasts.settings_twice,
        recasts.programStart_eq]
  | _ => exact fun machine => erased_eq_iff.mpr ⟨rfl, recasts.edit machine _ _, rfl⟩

end ChipEight.Machine
