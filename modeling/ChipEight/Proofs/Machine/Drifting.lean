import ChipEight.Machine.Action
import ChipEight.Proofs.Machine.Frame
import ChipEight.Proofs.Machine.Obeying

/-!
# Running off the end of memory

Behind the end of memory there are only zeros, and a zero word is no instruction. So a program that
gets there is carried on word by word, and nothing else happens to it until the program counter
wraps around. It wraps to the first or the second byte of memory: the word at the last address of
all is not looked for at the start of memory, so it is a zero like the others.
-/

namespace ChipEight

namespace State

/-- Behind the end of memory both bytes of a word are zero. -/
theorem word_of_past_end {state : State}
    (past : Memory.size ≤ state.registers.counter.toNat) : state.word = 0 := by
  rw [word, state.memory.read_of_size_le past,
    state.memory.read_of_size_le (Nat.le_succ_of_le past)]
  rfl

theorem advance_jump (state : State) (number : Nat) :
    (state.jump (UInt16.ofNat number)).advance = state.jump (UInt16.ofNat (number + 2)) := by
  rw [UInt16.ofNat_add]
  rfl

end State

namespace Machine

variable {machine : Machine}

/-- A step behind the end of memory fetches a word that is no instruction. -/
theorem step_of_past_end (free : machine.state.awaiting = none)
    (past : Memory.size ≤ machine.state.registers.counter.toNat) :
    machine.step.value = .unknown 0 ∧ machine.step.machine = machine.fetch := by
  have word := State.word_of_past_end past
  have unknown : Instruction.ofWord? machine.state.word = none := by
    rw [word]
    rfl
  rw [step_of_unknown free unknown, word]
  exact ⟨rfl, rfl⟩

/-- How many words there are from an address to the end of all addresses, where the last one may be
cut off. -/
def wordsToEnd (address : Nat) : Nat :=
  (65536 - address + 1) / 2

/-- A machine that was only carried on, by so many words. -/
structure Carried (before : Machine) (words : Nat) (after : Machine) : Prop where
  state_eq : after.state =
    before.state.jump (UInt16.ofNat (before.state.registers.counter.toNat + 2 * words))
  settings_eq : after.settings = before.settings
  keypad_eq : after.keypad = before.keypad
  random_eq : after.random = before.random

theorem carried_zero (machine : Machine) : Carried machine 0 machine where
  state_eq := by
    rw [Nat.mul_zero, Nat.add_zero, UInt16.ofNat_toNat]
    rfl
  settings_eq := rfl
  keypad_eq := rfl
  random_eq := rfl

section

variable {before after : Machine} {words : Nat} (carried : Carried before words after)

include carried

theorem Carried.fetch : Carried before (words + 1) after.fetch where
  state_eq := by
    change after.state.advance = _
    rw [carried.state_eq, State.advance_jump, Nat.add_assoc]
    rfl
  settings_eq := carried.settings_eq
  keypad_eq := carried.keypad_eq
  random_eq := carried.random_eq

theorem Carried.counter_eq :
    after.state.registers.counter.toNat =
      (before.state.registers.counter.toNat + 2 * words) % 65536 := by
  rw [carried.state_eq]
  exact UInt16.toNat_ofNat'

theorem Carried.awaiting_eq : after.state.awaiting = before.state.awaiting := by
  rw [carried.state_eq]
  rfl

/-- Before the last word the program counter has not wrapped around. -/
theorem Carried.past_end (past : Memory.size ≤ before.state.registers.counter.toNat)
    (within : words < wordsToEnd before.state.registers.counter.toNat) :
    Memory.size ≤ after.state.registers.counter.toNat := by
  unfold wordsToEnd at within
  rw [carried.counter_eq, Nat.mod_eq_of_lt (by omega)]
  exact Nat.le_add_right_of_le past

/-- The last word takes the program counter around. -/
theorem Carried.counter_eq_of_last
    (last : words = wordsToEnd before.state.registers.counter.toNat) :
    after.state.registers.counter.toNat = before.state.registers.counter.toNat % 2 := by
  have bound := before.state.registers.counter.toNat_lt
  rw [carried.counter_eq, last, wordsToEnd]
  omega

theorem Carried.machine_eq :
    after =
      { before with
        state := before.state.jump
          (UInt16.ofNat (before.state.registers.counter.toNat + 2 * words))
        past := after.past } := by
  obtain ⟨state, settings, keypad, random⟩ := carried
  cases after
  subst settings state keypad random
  rfl

end

/-- As long as the program counter has not wrapped around, steps only carry the machine on. -/
theorem carried_afterSteps (free : machine.state.awaiting = none)
    (past : Memory.size ≤ machine.state.registers.counter.toNat) {words : Nat}
    (within : words ≤ wordsToEnd machine.state.registers.counter.toNat) :
    Carried machine words (machine.afterSteps words) := by
  induction words with
  | zero => exact machine.carried_zero
  | succ words ih =>
      have carried := ih (Nat.le_of_succ_le within)
      have stillFree := carried.awaiting_eq.trans free
      have stillPast := carried.past_end past within
      rw [afterSteps_succ_last, (step_of_past_end stillFree stillPast).2]
      exact carried.fetch

end Machine

/-- A program that runs off the end of memory meets words that are no instructions until its program
counter has wrapped around to the first or the second byte of memory. On the way there it is only
carried on: no register but the program counter changes, and neither do memory, picture, timers,
keypad and random bytes. -/
theorem drifts_to_start (machine : Machine) (free : machine.state.awaiting = none)
    (past : Memory.size ≤ machine.state.registers.counter.toNat) :
    let address := machine.state.registers.counter.toNat
    let count := (65536 - address + 1) / 2
    (∀ taken, taken < count →
      (machine.afterSteps taken).step.value = .unknown 0 ∧
        Memory.size ≤ (machine.afterSteps taken).state.registers.counter.toNat) ∧
    (∀ taken, taken ≤ count →
      let reached := machine.afterSteps taken
      reached.state.registers.counter.toNat = (address + 2 * taken) % 65536 ∧
        reached =
          { machine with
            state := { machine.state with
              registers := { machine.state.registers with
                counter := reached.state.registers.counter } }
            past := reached.past }) ∧
    (machine.afterSteps count).state.registers.counter.toNat = address % 2 := by
  intro address count
  refine ⟨?_, ?_, ?_⟩
  · intro taken early
    have carried := Machine.carried_afterSteps free past (Nat.le_of_lt early)
    have stillPast := carried.past_end past early
    exact ⟨(Machine.step_of_past_end (carried.awaiting_eq.trans free) stillPast).1, stillPast⟩
  · intro taken within reached
    have carried := Machine.carried_afterSteps free past within
    refine ⟨carried.counter_eq, ?_⟩
    have counter : reached.state.registers.counter =
        UInt16.ofNat (machine.state.registers.counter.toNat + 2 * taken) := by
      rw [carried.state_eq]
      rfl
    rw [counter]
    exact carried.machine_eq
  · exact (Machine.carried_afterSteps free past (Nat.le_refl count)).counter_eq_of_last rfl

/-- A machine that stands before the last word and a half of all addresses. -/
def atLastAddresses : Machine :=
  ((Machine.start {} 0).run [.setCounter 0xFFFD]).machine

/-- Two steps later it stands at the second byte of memory. -/
theorem atLastAddresses_drifts :
    atLastAddresses.state.awaiting = none ∧
    atLastAddresses.state.registers.counter.toNat = 0xFFFD ∧
    atLastAddresses.step.value = .unknown 0 ∧
    atLastAddresses.step.machine.step.value = .unknown 0 ∧
    (atLastAddresses.afterSteps 1).state.registers.counter.toNat = 0xFFFF ∧
    (atLastAddresses.afterSteps 2).state.registers.counter.toNat = 1 := by
  have free : atLastAddresses.state.awaiting = none := rfl
  have here : atLastAddresses.state.registers.counter.toNat = 0xFFFD := rfl
  obtain ⟨outcomes, places, last⟩ :=
    drifts_to_start atLastAddresses free (by rw [here]; decide)
  dsimp only at outcomes places last
  rw [here] at outcomes places last
  exact ⟨free, here, (outcomes 0 (by decide)).1, (outcomes 1 (by decide)).1,
    (places 1 (by decide)).1, last⟩

end ChipEight
