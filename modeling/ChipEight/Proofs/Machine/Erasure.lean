import ChipEight.Machine.Action

/-!
# What operations overlook

Two machines can differ in a part that an operation does not look at. An erasure describes the
part: it puts the same in its place in every machine. An operation overlooks the part if it
answers and reports the same without it, and leads to a machine that differs in that part only.

What a step overlooks is overlooked by frames, and what single actions overlook by runs.
-/

namespace ChipEight

/-- A reply with a part of its machine erased. -/
def Reply.erased {Value : Type} (reply : Reply Value) (erase : Machine → Machine) : Reply Value :=
  { reply with machine := erase reply.machine }

namespace Machine

/-- Whether an operation does without what an erasure takes away. -/
def Overlooks {Value : Type} (erase : Machine → Machine) (operation : Machine → Reply Value) :
    Prop :=
  ∀ machine, (operation (erase machine)).erased erase = (operation machine).erased erase

variable {Value : Type} {erase : Machine → Machine}

theorem erased_eq_iff {first second : Reply Value} :
    first.erased erase = second.erased erase ↔
      first.value = second.value ∧ erase first.machine = erase second.machine ∧
        first.notices = second.notices := by
  simp [Reply.erased]

/-- An operation cannot tell machines apart that differ only in what it overlooks. -/
theorem Overlooks.congr {operation : Machine → Reply Value}
    (overlooks : Overlooks erase operation) {first second : Machine}
    (alike : erase first = erase second) :
    (operation first).erased erase = (operation second).erased erase := by
  rw [← overlooks first, alike, overlooks second]

theorem Overlooks.map {Other : Type} {operation : Machine → Reply Value}
    (overlooks : Overlooks erase operation) (change : Value → Other) :
    Overlooks erase fun machine => (operation machine).map change :=
  fun machine => congrArg (Reply.map change) (overlooks machine)

/-- What can be erased piece by piece, in either order, can be erased together. -/
theorem Overlooks.comp {other : Machine → Machine} {operation : Machine → Reply Value}
    (first : Overlooks erase operation) (second : Overlooks other operation)
    (commute : ∀ machine, erase (other machine) = other (erase machine)) :
    Overlooks (fun machine => other (erase machine)) operation := by
  intro machine
  obtain ⟨firstValues, firstMachines, firstNotices⟩ := erased_eq_iff.mp (first machine)
  obtain ⟨values, machines, notices⟩ := erased_eq_iff.mp (second (erase machine))
  refine erased_eq_iff.mpr ⟨values.trans firstValues, ?_, notices.trans firstNotices⟩
  dsimp only
  rw [← commute, machines, commute, firstMachines]

/-- Whoever presses a key by another name does without what the press of a key does without. -/
theorem Overlooks.press (keys : ∀ key, Overlooks erase fun machine => machine.pressKey key)
    (settled : ∀ machine, erase (erase machine) = erase machine) (byte : UInt8) :
    Overlooks erase fun machine => machine.press byte := by
  intro machine
  unfold Machine.press
  cases Digit.ofByte? byte with
  | none => exact erased_eq_iff.mpr ⟨rfl, settled machine, rfl⟩
  | some key => exact keys key machine

theorem Overlooks.labelDown (keys : ∀ key, Overlooks erase fun machine => machine.pressKey key)
    (settled : ∀ machine, erase (erase machine) = erase machine) (label : Char) :
    Overlooks erase fun machine => machine.labelDown label := by
  intro machine
  unfold Machine.labelDown
  cases Keyboard.keyOfLabel? label with
  | none => exact erased_eq_iff.mpr ⟨rfl, settled machine, rfl⟩
  | some key => exact (keys key).map _ machine

theorem erased_andThen {Next : Type} {operation : Machine → Reply Next}
    (overlooks : Overlooks erase operation) {first second : Reply Value}
    (alike : first.erased erase = second.erased erase) :
    (first.andThen operation).erased erase = (second.andThen operation).erased erase := by
  obtain ⟨_, machines, notices⟩ := erased_eq_iff.mp alike
  obtain ⟨values, after, more⟩ := erased_eq_iff.mp (overlooks.congr machines)
  exact erased_eq_iff.mpr ⟨values, after, by simp only [Reply.andThen, notices, more]⟩

theorem erased_stepOn (overlooks : Overlooks erase step) (count : Nat)
    {first second : Reply StepOutcome} (alike : first.erased erase = second.erased erase) :
    (stepOn count first).erased erase = (stepOn count second).erased erase := by
  induction count generalizing first second with
  | zero => exact alike
  | succ count ih =>
      have outcomes := (erased_eq_iff.mp alike).1
      cases waits : second.value.isWait with
      | true => simpa only [stepOn, outcomes, waits, if_true] using alike
      | false =>
          simpa only [stepOn, outcomes, waits, Bool.false_eq_true, if_false] using
            ih (erased_andThen overlooks alike)

/-- What a step overlooks is overlooked by a frame, if ticks and the length of a frame do without
it too. -/
theorem Overlooks.runFrame (overlooks : Overlooks erase step)
    (cycles : ∀ machine, (erase machine).settings.cyclesPerTick = machine.settings.cyclesPerTick)
    (ticks : ∀ machine, erase (erase machine).tickTimers = erase machine.tickTimers) :
    Overlooks erase Machine.runFrame := by
  intro machine
  have stepped := erased_stepOn overlooks (machine.settings.cyclesPerTick.toNat - 1)
    (overlooks machine)
  obtain ⟨values, machines, notices⟩ := erased_eq_iff.mp stepped
  rw [erased_eq_iff, Machine.runFrame, cycles]
  refine ⟨values, ?_, notices⟩
  dsimp only
  rw [← ticks, machines, ticks]
  rfl

/-- Runs are alike if their first actions are and the rest goes on alike from there. -/
theorem erased_run_cons {first second : Machine} {action : Action} {later : List Action}
    (performed : (first.perform action).erased erase = (second.perform action).erased erase)
    (goesOn : ((first.perform action).machine.run later).erased erase =
      ((second.perform action).machine.run later).erased erase) :
    (first.run (action :: later)).erased erase = (second.run (action :: later)).erased erase := by
  obtain ⟨answers, _, notices⟩ := erased_eq_iff.mp performed
  obtain ⟨more, after, rest⟩ := erased_eq_iff.mp goesOn
  refine erased_eq_iff.mpr ⟨?_, after, ?_⟩
  · simp only [run, answers, more]
  · simp only [run, notices, rest]

/-- What every action of a run overlooks is overlooked by the run. -/
theorem erased_run {actions : List Action}
    (overlook : ∀ action ∈ actions, Overlooks erase fun machine => machine.perform action)
    {first second : Machine} (alike : erase first = erase second) :
    (first.run actions).erased erase = (second.run actions).erased erase := by
  induction actions generalizing first second with
  | nil => exact erased_eq_iff.mpr ⟨rfl, alike, rfl⟩
  | cons action later ih =>
      rw [List.forall_mem_cons] at overlook
      have performed := overlook.1.congr alike
      obtain ⟨_, machines, _⟩ := erased_eq_iff.mp performed
      exact erased_run_cons performed (ih overlook.2 machines)

end Machine

end ChipEight
