import ChipEight.Proofs.Instruction.Patterns
import ChipEight.Proofs.Machine.Effects

/-!
# What a step makes of its word

A step fetches two bytes and looks their word up in the list of instructions. It runs the word if
the list has a pattern for it, and says so unless a wait began. A word without a pattern is passed
over: the program counter moves on and the state before is kept, but nothing else happens.
-/

namespace ChipEight

theorem State.toNat_word (state : State) :
    state.word.toNat =
      256 * (state.memory.read state.registers.counter.toNat).toNat +
        (state.memory.read (state.registers.counter.toNat + 1)).toNat := by
  have high := (state.memory.read state.registers.counter.toNat).toNat_lt
  have low := (state.memory.read (state.registers.counter.toNat + 1)).toNat_lt
  simp only [word, UInt16.toNat_add, UInt16.toNat_mul, UInt8.toNat_toUInt16, UInt16.reduceToNat]
  omega

namespace Machine

/-- A state that is kept stands in front of the past ones, of which the oldest may have to go. -/
theorem keepState_of_ne_zero {depth : Nat} (keeps : depth ≠ 0) (state : State)
    (past : List State) :
    keepState depth state past =
      state :: if past.length = depth then past.dropLast else past := by
  simp only [keepState, if_neg keeps]
  split <;> rfl

variable {machine : Machine}

theorem value_step_of_known {instruction : Instruction} (free : machine.state.awaiting = none)
    (known : Instruction.ofWord? machine.state.word = some instruction) :
    machine.step.value =
      if Word.isTransfer machine.state.word 0x0A then .awaitingKey (Word.x machine.state.word)
      else .executed machine.state.word := by
  have awaiting := awaiting_step free
  rw [state_step_of_known free known] at awaiting
  rw [step_of_known free known]
  simp only [StepOutcome.ofState]
  rw [awaiting]
  by_cases begins : Word.isTransfer machine.state.word 0x0A = true
  · rw [if_pos begins, if_pos begins]
  · rw [if_neg begins, if_neg begins]

end Machine

/-- A step makes of its word what the list of 34 instructions says. A machine that waits stays as
it is, an unlisted word moves the program counter on and nothing else, the word FX0A begins a wait,
and every other word with a listed pattern is run. No word has two patterns. -/
theorem step_follows_table (machine : Machine) :
    let before := machine.state
    let address := before.registers.counter.toNat
    let word := before.word
    let reply := machine.step
    let listed := ∃ line ∈ Instruction.table, line.pattern.Matches word
    let waits := (Pattern.ofByte 0xF 0x0A).Matches word
    (word.toNat = 256 * (before.memory.read address).toNat +
        (before.memory.read (address + 1)).toNat ∧
      ∀ beyond, Memory.size ≤ beyond → before.memory.read beyond = 0) ∧
    (∀ register, before.awaiting = some register →
      reply = ⟨.awaitingKey register, machine, #[]⟩) ∧
    (before.awaiting = none →
      (¬ listed →
        reply.value = .unknown word ∧
        reply.machine =
          { machine with
            state := { before with
              registers := { before.registers with counter := before.registers.counter + 2 } }
            past := reply.machine.past } ∧
        (machine.settings.historyDepth = 0 → reply.machine.past = machine.past) ∧
        (machine.settings.historyDepth ≠ 0 →
          reply.machine.past =
            before :: if machine.past.length = machine.settings.historyDepth then
              machine.past.dropLast
            else machine.past)) ∧
      (waits → reply.value = .awaitingKey (Word.x word)) ∧
      (listed → ¬ waits → reply.value = .executed word)) ∧
    Instruction.table.length = 34 ∧
    ∀ any, ∀ first ∈ Instruction.table, ∀ second ∈ Instruction.table,
      first.pattern.Matches any → second.pattern.Matches any → first = second := by
  intro before address word reply listed waits
  have waits_iff : Word.isTransfer word 0x0A = true ↔ waits := by
    rw [Word.isTransfer_eq_true_iff, ← Pattern.matches_ofByte_iff]
  have known (fits : listed) : ∃ instruction, Instruction.ofWord? word = some instruction := by
    obtain ⟨line, member, fits⟩ := fits
    exact ⟨_, Instruction.ofWord?_eq_some_iff_line.mpr ⟨line, member, fits, rfl⟩⟩
  refine ⟨⟨before.toNat_word, fun _ past => before.memory.read_of_size_le past⟩, ?_, ?_, rfl, ?_⟩
  · exact fun register awaits => Machine.step_of_awaiting awaits
  · intro free
    refine ⟨?_, ?_, ?_⟩
    · intro unlisted
      have unknown : Instruction.ofWord? word = none :=
        Instruction.ofWord?_eq_none_iff.mpr fun line member fits => unlisted ⟨line, member, fits⟩
      have passes : reply = _ := Machine.step_of_unknown free unknown
      rw [passes]
      refine ⟨rfl, rfl, ?_, ?_⟩
      · intro keepsNothing
        change Machine.keepState _ _ _ = _
        rw [Machine.keepState, if_pos keepsNothing]
      · intro keeps
        exact Machine.keepState_of_ne_zero keeps before machine.past
    · intro begins
      have fits : listed :=
        ⟨⟨.ofByte 0xF 0x0A, fun word => .awaitKey (Word.x word)⟩, by simp [Instruction.table],
          begins⟩
      obtain ⟨instruction, decoded⟩ := known fits
      rw [Machine.value_step_of_known free decoded, if_pos (waits_iff.mpr begins)]
    · intro fits goesOn
      obtain ⟨instruction, decoded⟩ := known fits
      rw [Machine.value_step_of_known free decoded, if_neg (mt waits_iff.mp goesOn)]
  · intro any first firstListed second secondListed firstFits secondFits
    exact Instruction.line_unique firstListed secondListed firstFits secondFits

end ChipEight
