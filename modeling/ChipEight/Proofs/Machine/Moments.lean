import ChipEight.Proofs.Machine.Stopping

/-!
# The moments of a run

A run takes steps one at a time and in frames, with other actions in between. A moment of the run
is the machine as it was just before one of them. A machine that waits for a key takes no step,
so it is no moment.
-/

namespace ChipEight.Machine

/-- The machine before each of so many steps, up to a wait. -/
def moments (machine : Machine) : Nat → List Machine
  | 0 => []
  | count + 1 =>
    if machine.isAwaitingKey then [] else machine :: machine.step.machine.moments count

def momentsOf (machine : Machine) : Action → List Machine
  | .step => machine.moments 1
  | .runFrame => machine.moments machine.settings.cyclesPerTick.toNat
  | _ => []

def momentsIn (machine : Machine) : List Action → List Machine
  | [] => []
  | action :: later =>
    machine.momentsOf action ++ (machine.perform action).machine.momentsIn later

variable {machine : Machine}

theorem moments_of_awaiting (awaits : machine.isAwaitingKey = true) (count : Nat) :
    machine.moments count = [] := by
  cases count with
  | zero => rfl
  | succ count => rw [moments, if_pos awaits]

theorem moments_succ_of_free (free : machine.isAwaitingKey = false) (count : Nat) :
    machine.moments (count + 1) = machine :: machine.step.machine.moments count := by
  rw [moments, if_neg (by simp [free])]

theorem afterSteps_of_awaiting (awaits : machine.isAwaitingKey = true) (count : Nat) :
    machine.afterSteps count = machine := by
  obtain ⟨register, waits⟩ := Option.isSome_iff_exists.mp awaits
  rw [← machine_steps, steps_of_awaiting waits]

/-- A frame leads to where its steps lead, but for the timers. -/
theorem machine_runFrame_eq_afterSteps (machine : Machine) :
    machine.runFrame.machine =
      (machine.afterSteps machine.settings.cyclesPerTick.toNat).tickTimers := by
  rw [← machine_steps]
  exact machine.runFrame_eq_steps.1

/-- Actions that run nothing have no moments. -/
theorem momentsOf_eq_nil {action : Action} (idle : action.runsProgram = false) :
    machine.momentsOf action = [] := by
  cases action with
  | step | runFrame => cases idle
  | _ => rfl

end ChipEight.Machine
