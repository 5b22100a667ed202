import ChipEight.Machine.Action
import ChipEight.Proofs.Instruction.Registers
import ChipEight.Proofs.Machine.Step

/-!
# What a step changes

The word that a step runs tells which parts of the machine the step may change. This file goes
through the parts one after the other. Most of them may be changed by one or two kinds of words
only; the V registers are the operands of many.
-/

namespace ChipEight

namespace Machine

variable {machine : Machine}

/-- A part of the state that no instruction of the word changes is not changed by the step. -/
theorem part_step {Part : Type} (part : State → Part)
    (passes : part machine.state.advance = part machine.state)
    (runs : ∀ instruction, Word.StandsFor machine.state.word instruction →
      part (instruction.execute machine.settings machine.keypad machine.random
        machine.state.advance).state = part machine.state.advance) :
    part machine.step.machine.state = part machine.state := by
  have stepped := machine.stepped_step
  generalize machine.step = reply at stepped ⊢
  cases stepped with
  | waits => rfl
  | passes => exact passes
  | runs _ known executed =>
      subst executed
      exact (runs _ (Instruction.standsFor_of_ofWord? known)).trans passes

theorem memory_step {address : Nat}
    (kept : Word.stores machine.state.word machine.state.target address = false) :
    machine.step.machine.state.memory.read address = machine.state.memory.read address := by
  apply part_step (fun state => state.memory.read address) rfl
  intro instruction stands
  rw [← Instruction.stores_of_standsFor stands] at kept
  exact Instruction.memory_execute _ _ _ machine.state.advance kept

theorem delayTimer_step (other : Word.isTransfer machine.state.word 0x15 = false) :
    machine.step.machine.state.delayTimer = machine.state.delayTimer := by
  apply part_step State.delayTimer rfl
  intro instruction stands
  apply Instruction.delayTimer_execute
  rintro x rfl
  cases stands with
  | setDelay family byte => simp [Word.isTransfer, family, byte] at other

theorem soundTimer_step (other : Word.isTransfer machine.state.word 0x18 = false) :
    machine.step.machine.state.soundTimer = machine.state.soundTimer := by
  apply part_step State.soundTimer rfl
  intro instruction stands
  apply Instruction.soundTimer_execute
  rintro x rfl
  cases stands with
  | setSound family byte => simp [Word.isTransfer, family, byte] at other

/-- A step draws if its word does. -/
theorem picture_step (still : Word.draws machine.state.word = false) :
    machine.step.machine.state.screen = machine.state.screen ∧
      machine.step.machine.state.redraw = machine.state.redraw := by
  have quiet {instruction : Instruction}
      (stands : Word.StandsFor machine.state.word instruction) : instruction.draws = false :=
    (Instruction.draws_of_standsFor stands).trans still
  constructor
  · apply part_step State.screen rfl
    intro instruction stands
    exact Instruction.screen_execute _ _ _ _ (quiet stands)
  · apply part_step State.redraw rfl
    intro instruction stands
    rw [Instruction.redraw_execute, quiet stands, Bool.or_false]

theorem stack_step
    (other : ¬ (Word.family machine.state.word = 0x2 ∨ machine.state.word = 0x00EE)) :
    machine.step.machine.state.registers.stack = machine.state.registers.stack := by
  apply part_step (fun state => state.registers.stack) rfl
  intro instruction stands
  apply (Instruction.keeps_execute _ _ _ machine.state.advance instruction).stack_eq
  cases stands with
  | leave whole => exact absurd (.inr whole) other
  | call family => exact absurd (.inl family) other
  | _ => rfl

theorem index_step (still : Word.points machine.state.word = false) :
    machine.step.machine.state.registers.index = machine.state.registers.index := by
  apply part_step (fun state => state.registers.index) rfl
  intro instruction stands
  apply (Instruction.keeps_execute _ _ _ machine.state.advance instruction).index_eq
  exact (Instruction.points_of_standsFor stands).trans still

theorem v_step {register : Digit}
    (kept : Word.writes machine.settings.shiftRoles machine.state.word register = false) :
    machine.step.machine.state.v register = machine.state.v register := by
  apply part_step (fun state => state.v register) rfl
  intro instruction stands
  apply (Instruction.keeps_execute _ _ _ machine.state.advance instruction).read_eq
  exact (Instruction.writes_of_standsFor stands _ register).trans kept

/-- A machine waits after a step if the word says so. -/
theorem awaiting_step (free : machine.state.awaiting = none) :
    machine.step.machine.state.awaiting =
      if Word.isTransfer machine.state.word 0x0A then some (Word.x machine.state.word)
      else none := by
  by_cases waits : Word.isTransfer machine.state.word 0x0A = true
  · obtain ⟨family, byte⟩ := Word.isTransfer_eq_true_iff.mp waits
    rw [if_pos waits, state_step_of_known free
      (Instruction.ofWord?_of_standsFor (.awaitKey family byte))]
    rfl
  · rw [if_neg waits, ← free]
    apply part_step State.awaiting rfl
    intro instruction stands
    rcases Instruction.awaiting_execute machine.settings machine.keypad machine.random
      machine.state.advance instruction with same | ⟨x, rfl⟩
    · exact same
    · cases stands with
      | awaitKey family byte =>
          exact absurd (Word.isTransfer_eq_true_iff.mpr ⟨family, byte⟩) waits

end Machine

/-- What a step that is taken may change, by the word that it runs: memory within the window of a
decimal or of registers that are stored, the picture, the return addresses, the timers, a wait,
the index register and the V registers that are operands. -/
theorem step_stays_in_footprint (machine : Machine) (free : machine.state.awaiting = none) :
    let word := machine.state.word
    let before := machine.state
    let reached := machine.step.machine
    let after := reached.state
    (reached.settings = machine.settings ∧ reached.keypad = machine.keypad) ∧
    (reached.random =
      if Word.family word = 0xC then machine.random.advance else machine.random) ∧
    (∀ address, after.memory.read address ≠ before.memory.read address →
      address < Memory.size ∧ Word.stores word before.registers.index.toNat address = true) ∧
    (after.screen ≠ before.screen ∨ after.redraw ≠ before.redraw → Word.draws word = true) ∧
    (after.registers.stack ≠ before.registers.stack → Word.family word = 0x2 ∨ word = 0x00EE) ∧
    (after.delayTimer ≠ before.delayTimer → Word.isTransfer word 0x15 = true) ∧
    (after.soundTimer ≠ before.soundTimer → Word.isTransfer word 0x18 = true) ∧
    (after.awaiting = if Word.isTransfer word 0x0A then some (Word.x word) else none) ∧
    (after.registers.index ≠ before.registers.index → Word.points word = true) ∧
    (∀ register, after.v register ≠ before.v register →
      Word.writes machine.settings.shiftRoles word register = true) := by
  intro word before reached after
  refine ⟨⟨machine.settings_step, machine.keypad_step⟩, ?_, ?_, ?_, ?_, ?_, ?_,
    Machine.awaiting_step free, ?_, ?_⟩
  · simpa [Machine.drawsRandom, Machine.isAwaitingKey, free] using machine.random_step
  · intro address changed
    refine ⟨?_, Bool.of_not_eq_false (mt Machine.memory_step changed)⟩
    apply Nat.lt_of_not_le
    intro past
    exact changed
      ((Memory.read_of_size_le _ past).trans (Memory.read_of_size_le _ past).symm)
  · intro changed
    apply Bool.of_not_eq_false
    intro still
    obtain ⟨screen, redraw⟩ := Machine.picture_step still
    exact changed.elim (absurd screen) (absurd redraw)
  · exact fun changed => Classical.not_not.mp (mt Machine.stack_step changed)
  · exact fun changed => Bool.of_not_eq_false (mt Machine.delayTimer_step changed)
  · exact fun changed => Bool.of_not_eq_false (mt Machine.soundTimer_step changed)
  · exact fun changed => Bool.of_not_eq_false (mt Machine.index_step changed)
  · exact fun register changed => Bool.of_not_eq_false (mt Machine.v_step changed)

/-- A machine that is about to store three registers at the last address of memory. -/
def spillAtEnd : Machine :=
  ((Machine.start {} 0).run
    [.loadProgram 0x200 #[0xF2, 0x55], .setIndex 0xFFF, .setRegister 0 7]).machine

/-- Of the three registers only the first finds a place in memory, and nothing at the start of
memory changes instead. -/
theorem spillAtEnd_stays_in_footprint :
    let before := spillAtEnd.state
    let reached := spillAtEnd.step.machine
    let after := reached.state
    before.awaiting = none ∧ before.word = 0xF255 ∧ before.registers.index = 0xFFF ∧
      (∀ address, after.memory.read address ≠ before.memory.read address → address = 0xFFF) ∧
      (∀ register, after.v register = before.v register) ∧
      after.registers.stack = before.registers.stack ∧ after.screen = before.screen ∧
      after.awaiting = none ∧ reached.random = spillAtEnd.random := by
  have free : spillAtEnd.state.awaiting = none := rfl
  have index : spillAtEnd.state.registers.index = 0xFFF := rfl
  have loaded : spillAtEnd.state.memory = Memory.initial.load 0x200 #[0xF2, 0x55] := rfl
  have here : spillAtEnd.state.registers.counter.toNat = 0x200 := rfl
  have word : spillAtEnd.state.word = 0xF255 := by
    rw [State.word_of_loaded 0 loaded here (by decide) (by decide)]
    decide
  have footprint := step_stays_in_footprint spillAtEnd free
  dsimp only at footprint ⊢
  rw [word, index] at footprint
  generalize spillAtEnd.step.machine = reached at footprint ⊢
  obtain ⟨_, random, memory, picture, stack, _, _, awaiting, _, v⟩ := footprint
  rw [if_neg (by decide)] at random awaiting
  have digits : Word.family 0xF255 = 0xF ∧ (Word.byte 0xF255).toNat = 0x55 := by decide
  refine ⟨free, word, index, ?_, ?_, ?_, ?_, awaiting, random⟩
  · intro address changed
    obtain ⟨within, stores⟩ := memory address changed
    have behind : 0xFFF ≤ address := by
      simp [Word.stores] at stores
      omega
    simp only [Memory.size] at within
    omega
  · intro register
    exact Classical.not_not.mp (mt (v register) (by simp [Word.writes, digits]))
  · exact Classical.not_not.mp (mt stack (by decide))
  · exact Classical.not_not.mp fun changed => absurd (picture (.inl changed)) (by decide)

end ChipEight
