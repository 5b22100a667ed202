import ChipEight.Proofs.Machine.Background

/-!
# Machines that forget their past

How much of its past a machine keeps shows when it goes back, and at no other time: any other
action does the same to a machine that keeps none of it.
-/

namespace ChipEight

namespace Machine

/-- The machine as it would be if it kept no past states. -/
def forgetful (machine : Machine) : Machine :=
  { machine with settings := { machine.settings with historyDepth := 0 }, past := [] }

/-- A step keeps a state and then does not look at it. -/
theorem step_overlooks_past : Overlooks forgetful step := by
  intro machine
  cases waiting : machine.state.awaiting with
  | some register =>
      simp only [step, forgetful, waiting]
      rfl
  | none =>
      simp only [step, forgetful, waiting, runWord]
      cases Instruction.ofWord? machine.state.word <;> rfl

theorem runFrame_overlooks_past : Overlooks forgetful runFrame :=
  step_overlooks_past.runFrame (fun _ => rfl) fun _ => rfl

theorem recasts_forgetful :
    Recasts (fun settings => { settings with historyDepth := 0 }) fun _ => [] :=
  ⟨fun _ => rfl, fun _ => rfl, fun _ => rfl⟩

/-- Only going back looks at the past. -/
theorem perform_overlooks_past {action : Action} (stays : action ≠ .rewind) :
    Overlooks forgetful fun machine => machine.perform action := by
  cases runs : action.runsProgram with
  | false => exact recasts_forgetful.perform runs stays
  | true =>
      cases action with
      | step => exact step_overlooks_past.map _
      | runFrame => exact runFrame_overlooks_past.map _
      | _ => cases runs

end Machine

/-- Machines that differ in how much of their past they keep cannot be told apart by what they
do, unless they are asked to go back. -/
theorem history_is_invisible (settings : Settings) (seed : UInt64) (depth otherDepth : Nat)
    (entropy otherEntropy : Random.Entropy) (actions : List Action)
    (onward : ∀ action ∈ actions, action ≠ .rewind) :
    let seeded := { settings with seed := some seed }
    let first := (Machine.start { seeded with historyDepth := depth } entropy).run actions
    let second :=
      (Machine.start { seeded with historyDepth := otherDepth } otherEntropy).run actions
    first.value = second.value ∧ first.notices = second.notices ∧
      first.machine.state = second.machine.state ∧
      first.machine.keypad = second.machine.keypad ∧
      first.machine.random = second.machine.random := by
  intro seeded first second
  have overlook : ∀ action ∈ actions,
      Machine.Overlooks Machine.forgetful fun machine => machine.perform action :=
    fun action member => Machine.perform_overlooks_past (onward action member)
  have alike : (Machine.start { seeded with historyDepth := depth } entropy).forgetful =
      (Machine.start { seeded with historyDepth := otherDepth } otherEntropy).forgetful := rfl
  obtain ⟨answers, machines, notices⟩ :=
    Machine.erased_eq_iff.mp (Machine.erased_run overlook alike)
  have state := congrArg Machine.state machines
  have keypad := congrArg Machine.keypad machines
  have random := congrArg Machine.random machines
  exact ⟨answers, notices, state, keypad, random⟩

/-- Loads an instruction that draws a random byte, presses a key, and runs the instruction. -/
def randomActions : List Action := [.loadProgram 0x200 #[0xC3, 0xFF], .press 4] ++ [.step]

theorem length_past_randomActions (settings : Settings) (entropy : Random.Entropy) :
    ((Machine.start settings entropy).run randomActions).machine.past.length =
      min settings.historyDepth 1 := by
  have within : ([] : List State).length ≤ settings.historyDepth := Nat.zero_le _
  have free : ((Machine.start settings entropy).run
      [.loadProgram 0x200 #[0xC3, 0xFF], .press 4]).machine.isAwaitingKey = false := rfl
  rw [randomActions, Machine.machine_run_concat_step, Machine.past_step, free]
  exact (congrArg List.length (Machine.keepState_eq_take _ within)).trans List.length_take

/-- A machine that keeps no state and one that keeps two of them draw the same random byte. -/
theorem random_step_hides_history :
    let first := (Machine.start { seed := some 7, historyDepth := 0 } 1).run randomActions
    let second := (Machine.start { seed := some 7, historyDepth := 2 } 2).run randomActions
    (∀ action ∈ randomActions, action ≠ .rewind) ∧
      first.machine.past.length = 0 ∧ second.machine.past.length = 1 ∧
      first.value = second.value ∧ first.notices = second.notices ∧
      first.machine.state = second.machine.state ∧
      first.machine.random = second.machine.random := by
  intro first second
  have onward : ∀ action ∈ randomActions, action ≠ .rewind := by simp [randomActions]
  have invisible := history_is_invisible {} 7 0 2 1 2 randomActions onward
  dsimp only at invisible
  obtain ⟨answers, notices, state, _, random⟩ := invisible
  exact ⟨onward, length_past_randomActions _ _, length_past_randomActions _ _, answers, notices,
    state, random⟩

end ChipEight
