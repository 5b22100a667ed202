import ChipEight.Machine.Action
import ChipEight.Proofs.Machine.Step
import Mathlib.Logic.Function.Iterate

/-!
# Frames as steps

A frame is a number of steps followed by one tick of the timers. How many steps it takes
depends on when a wait begins. This file counts them, and concludes that what steps and
ticks keep is kept by frames, as what single actions keep is kept by runs.
-/

namespace ChipEight.Machine

def afterSteps (machine : Machine) (count : Nat) : Machine :=
  (fun machine => machine.step.machine)^[count] machine

/-- How many of `count` steps are taken by someone who stops as soon as the machine waits. -/
def stepsUntilWait (machine : Machine) : Nat → Nat
  | 0 => 0
  | count + 1 =>
    if machine.step.value.isWait then 1 else machine.step.machine.stepsUntilWait count + 1

def frameSteps (machine : Machine) : Nat :=
  machine.stepsUntilWait machine.settings.cyclesPerTick.toNat

@[simp]
theorem afterSteps_zero (machine : Machine) : machine.afterSteps 0 = machine :=
  rfl

theorem afterSteps_succ (machine : Machine) (count : Nat) :
    machine.afterSteps (count + 1) = machine.step.machine.afterSteps count :=
  rfl

theorem afterSteps_succ_last (machine : Machine) (count : Nat) :
    machine.afterSteps (count + 1) = (machine.afterSteps count).step.machine :=
  Function.iterate_succ_apply' ..

theorem machine_run_concat_step (machine : Machine) (earlier : List Action) :
    (machine.run (earlier ++ [.step])).machine = (machine.run earlier).machine.step.machine :=
  machine_run_append machine earlier [.step]

theorem machine_stepOn (count : Nat) (reply : Reply StepOutcome) :
    (stepOn count reply).machine =
      if reply.value.isWait then reply.machine
      else reply.machine.afterSteps (reply.machine.stepsUntilWait count) := by
  induction count generalizing reply with
  | zero => simp [stepOn, stepsUntilWait]
  | succ count ih =>
      by_cases waits : reply.value.isWait = true
      · simp [stepOn, waits]
      · have next : (reply.andThen step).machine = reply.machine.step.machine := rfl
        have outcome : (reply.andThen step).value = reply.machine.step.value := rfl
        rw [stepOn, if_neg waits, ih, next, outcome, if_neg waits, stepsUntilWait]
        by_cases begins : reply.machine.step.value.isWait = true
        · simp [begins, afterSteps_succ]
        · simp [begins, afterSteps_succ]

/-- A frame takes its steps and then lets the timers tick. -/
theorem machine_runFrame (machine : Machine) :
    machine.runFrame.machine = (machine.afterSteps machine.frameSteps).tickTimers := by
  have atLeastOne := machine.settings.one_le_cyclesPerTick
  obtain ⟨count, cycles⟩ : ∃ count, machine.settings.cyclesPerTick.toNat = count + 1 :=
    ⟨machine.settings.cyclesPerTick.toNat - 1, by omega⟩
  have stepped : (stepOn count machine.step).machine = machine.afterSteps machine.frameSteps := by
    rw [machine_stepOn, frameSteps, cycles, stepsUntilWait]
    by_cases waits : machine.step.value.isWait = true
    · simp [waits, afterSteps_succ]
    · simp [waits, afterSteps_succ]
  simp only [runFrame, cycles, Nat.add_sub_cancel, stepped]

theorem afterSteps_preserves {Holds : Machine → Prop}
    (kept : ∀ machine, Holds machine → Holds machine.step.machine)
    {machine : Machine} (holds : Holds machine) (count : Nat) :
    Holds (machine.afterSteps count) := by
  induction count generalizing machine with
  | zero => exact holds
  | succ count ih =>
      rw [afterSteps_succ]
      exact ih (kept machine holds)

/-- A part of the machine that no step changes. -/
theorem afterSteps_keeps {Part : Type} (part : Machine → Part)
    (kept : ∀ machine, part machine.step.machine = part machine) (machine : Machine) (count : Nat) :
    part (machine.afterSteps count) = part machine := by
  induction count generalizing machine with
  | zero => rfl
  | succ count ih => rw [afterSteps_succ, ih, kept]

/-- What steps and ticks keep is kept by a frame. -/
theorem runFrame_preserves (Holds : Machine → Prop)
    (stepKeeps : ∀ machine, Holds machine → Holds machine.step.machine)
    (tickKeeps : ∀ machine, Holds machine → Holds machine.tickTimers)
    {machine : Machine} (holds : Holds machine) : Holds machine.runFrame.machine := by
  rw [machine_runFrame]
  exact tickKeeps _ (afterSteps_preserves stepKeeps holds _)

/-- What each action of a run keeps is kept by the run. -/
theorem run_preserves (Holds : Machine → Prop) {actions : List Action}
    (kept : ∀ action ∈ actions, ∀ machine, Holds machine → Holds (machine.perform action).machine)
    {machine : Machine} (holds : Holds machine) : Holds (machine.run actions).machine := by
  induction actions generalizing machine with
  | nil => exact holds
  | cons action later ih =>
      rw [List.forall_mem_cons] at kept
      exact ih kept.2 (kept.1 machine holds)

end ChipEight.Machine
