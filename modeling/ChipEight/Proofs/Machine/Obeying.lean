import ChipEight.Proofs.Instruction.Words
import ChipEight.Proofs.Machine.Step

/-!
# Words on their own

A step fetches a word and then obeys it. What a word does does not depend on where it came from,
so it can be said of any machine and any word, whatever memory holds at the program counter.
-/

namespace ChipEight.Machine

/-- The machine after a word that has been fetched. A word that is no instruction does nothing. -/
def obey (machine : Machine) (word : UInt16) : Machine :=
  match Instruction.ofWord? word with
  | some instruction =>
    let effect :=
      instruction.execute machine.settings machine.keypad machine.random machine.state
    { machine with state := effect.state, random := effect.random }
  | none => machine

/-- The machine once the program counter has moved past the word that is fetched. -/
def fetch (machine : Machine) : Machine :=
  machine.remember.modifyState State.advance

variable {machine : Machine} {word : UInt16} {instruction : Instruction}

theorem obey_of_standsFor (stands : Word.StandsFor word instruction) :
    machine.obey word =
      { machine with
        state := (instruction.execute machine.settings machine.keypad machine.random
          machine.state).state
        random := (instruction.execute machine.settings machine.keypad machine.random
          machine.state).random } := by
  simp only [obey, Instruction.ofWord?_of_standsFor stands]

theorem state_obey_of_standsFor (stands : Word.StandsFor word instruction) :
    (machine.obey word).state =
      (instruction.execute machine.settings machine.keypad machine.random machine.state).state := by
  rw [obey_of_standsFor stands]

/-- The word of an instruction without an address does what the instruction does. -/
theorem obey_toWord (machine : Machine) (bare : instruction.address? = none) :
    machine.obey instruction.toWord =
      { machine with
        state := (instruction.execute machine.settings machine.keypad machine.random
          machine.state).state
        random := (instruction.execute machine.settings machine.keypad machine.random
          machine.state).random } :=
  obey_of_standsFor (Instruction.standsFor_toWord instruction (by simp [bare]))

theorem state_obey_toWord (machine : Machine) (bare : instruction.address? = none) :
    (machine.obey instruction.toWord).state =
      (instruction.execute machine.settings machine.keypad machine.random machine.state).state :=
  congrArg state (machine.obey_toWord bare)

/-- A step that is taken fetches the word at the program counter and obeys it. -/
theorem machine_step_of_free (free : machine.state.awaiting = none) :
    machine.step.machine = machine.fetch.obey machine.state.word := by
  cases decoded : Instruction.ofWord? machine.state.word with
  | none =>
      rw [step_of_unknown free decoded]
      simp only [obey, decoded]
      rfl
  | some instruction =>
      rw [step_of_known free decoded]
      simp only [obey, decoded]
      rfl

end ChipEight.Machine
