import ChipEight.Machine.Step
import ChipEight.Proofs.Instruction.Footprint

/-!
# What a step does

A machine that waits for a key is left as it is. Otherwise its state is kept among the
past ones, and the word at the program counter is passed over or run. This file sorts the
steps into these three kinds; what a step does to one part of the machine follows from
that.
-/

namespace ChipEight

/-- Whether a step ran an instruction that changes the picture. -/
def StepOutcome.draws : StepOutcome → Bool
  | .executed word => Word.draws word
  | .unknown _ | .awaitingKey _ => false

/-- The outcome of running a word, by the state that it leads to. -/
def StepOutcome.ofState (word : UInt16) (state : State) : StepOutcome :=
  match state.awaiting with
  | some register => .awaitingKey register
  | none => .executed word

namespace Machine

/-- The three ways in which a step goes. -/
inductive Stepped (machine : Machine) : Reply StepOutcome → Prop where
  | waits {register : Digit} (awaits : machine.state.awaiting = some register) :
      Stepped machine ⟨.awaitingKey register, machine, #[]⟩
  | passes (free : machine.state.awaiting = none)
      (unknown : Instruction.ofWord? machine.state.word = none) :
      Stepped machine
        ⟨.unknown machine.state.word, machine.remember.modifyState State.advance,
          #[fetchNotice machine.state,
            .unknownWord machine.state.word machine.state.registers.counter]⟩
  | runs {instruction : Instruction} {effect : Effect} (free : machine.state.awaiting = none)
      (known : Instruction.ofWord? machine.state.word = some instruction)
      (executed : effect =
        instruction.execute machine.settings machine.keypad machine.random machine.state.advance) :
      Stepped machine
        ⟨.ofState machine.state.word effect.state,
          { machine.remember with state := effect.state, random := effect.random },
          #[fetchNotice machine.state] ++ effect.notice.toArray⟩

variable (machine : Machine)

theorem stepped_step : Stepped machine machine.step := by
  cases waiting : machine.state.awaiting with
  | some register =>
      simp only [step, waiting]
      exact .waits waiting
  | none =>
      cases decoded : Instruction.ofWord? machine.state.word with
      | none =>
          simp only [step, waiting, runWord, decoded]
          exact .passes waiting decoded
      | some instruction =>
          simp only [step, waiting, runWord, decoded]
          exact .runs waiting decoded rfl

theorem step_of_awaiting {machine : Machine} {register : Digit}
    (awaits : machine.state.awaiting = some register) :
    machine.step = ⟨.awaitingKey register, machine, #[]⟩ := by
  simp only [step, awaits]

theorem step_of_known {machine : Machine} {instruction : Instruction}
    (free : machine.state.awaiting = none)
    (known : Instruction.ofWord? machine.state.word = some instruction) :
    let effect :=
      instruction.execute machine.settings machine.keypad machine.random machine.state.advance
    machine.step =
      ⟨.ofState machine.state.word effect.state,
        { machine.remember with state := effect.state, random := effect.random },
        #[fetchNotice machine.state] ++ effect.notice.toArray⟩ := by
  simp only [step, free, runWord, known]
  rfl

theorem step_of_unknown {machine : Machine} (free : machine.state.awaiting = none)
    (unknown : Instruction.ofWord? machine.state.word = none) :
    machine.step =
      ⟨.unknown machine.state.word, machine.remember.modifyState State.advance,
        #[fetchNotice machine.state,
          .unknownWord machine.state.word machine.state.registers.counter]⟩ := by
  simp only [step, free, runWord, unknown]

theorem state_step_of_known {machine : Machine} {instruction : Instruction}
    (free : machine.state.awaiting = none)
    (known : Instruction.ofWord? machine.state.word = some instruction) :
    machine.step.machine.state =
      (instruction.execute machine.settings machine.keypad machine.random
        machine.state.advance).state := by
  simp only [step, free, runWord, known]

@[simp]
theorem settings_step : machine.step.machine.settings = machine.settings := by
  have stepped := machine.stepped_step
  generalize machine.step = reply at stepped ⊢
  cases stepped <;> rfl

@[simp]
theorem keypad_step : machine.step.machine.keypad = machine.keypad := by
  have stepped := machine.stepped_step
  generalize machine.step = reply at stepped ⊢
  cases stepped <;> rfl

theorem past_step :
    machine.step.machine.past =
      if machine.isAwaitingKey then machine.past else machine.remember.past := by
  have stepped := machine.stepped_step
  generalize machine.step = reply at stepped ⊢
  cases stepped with
  | waits awaits => simp [isAwaitingKey, awaits]
  | passes free => simp [isAwaitingKey, free, modifyState]
  | runs free => simp [isAwaitingKey, free]

/-- Whether a machine is about to draw a random byte. -/
def drawsRandom : Bool :=
  !machine.isAwaitingKey && Word.family machine.state.word == 0xC

/-- A step draws one random byte if the word says so, and otherwise none. -/
theorem random_step :
    machine.step.machine.random =
      if machine.drawsRandom then machine.random.advance else machine.random := by
  have stepped := machine.stepped_step
  generalize machine.step = reply at stepped ⊢
  cases stepped with
  | waits awaits => simp [drawsRandom, isAwaitingKey, awaits]
  | passes free unknown =>
      have other : Word.family machine.state.word ≠ 0xC := fun family =>
        Instruction.not_standsFor_of_unknown unknown _ (.random family)
      simp [drawsRandom, other, modifyState, remember]
  | @runs instruction _ free known executed =>
      subst executed
      have stands := Instruction.standsFor_of_ofWord? known
      by_cases family : Word.family machine.state.word = 0xC
      · cases Instruction.standsFor_unique stands (.random family)
        simp [drawsRandom, isAwaitingKey, free, family, Instruction.execute]
      · have steady : ∀ x mask, instruction ≠ .random x mask := by
          rintro x mask rfl
          cases stands with
          | random same => exact family same
        have still := Instruction.random_execute machine.settings machine.keypad machine.random
          machine.state.advance steady
        simpa [drawsRandom, family] using still

theorem draws_ofState {word : UInt16} {instruction : Instruction} {effect : Effect}
    {machine : Machine} (free : machine.state.awaiting = none)
    (known : Instruction.ofWord? word = some instruction)
    (executed : effect =
      instruction.execute machine.settings machine.keypad machine.random machine.state.advance) :
    (StepOutcome.ofState word effect.state).draws = instruction.draws := by
  have waits := Instruction.awaiting_execute machine.settings machine.keypad machine.random
    machine.state.advance instruction
  rw [← executed] at waits
  rcases waits with same | ⟨x, rfl⟩
  · have ran : effect.state.awaiting = none := same.trans free
    simp only [StepOutcome.ofState, ran, StepOutcome.draws]
    exact (Instruction.draws_of_standsFor (Instruction.standsFor_of_ofWord? known)).symm
  · subst executed
    rfl

/-- A step asks for the picture to be drawn anew when it runs an instruction that changes it,
and at no other time. -/
theorem redraw_step :
    machine.step.machine.state.redraw = (machine.state.redraw || machine.step.value.draws) := by
  have stepped := machine.stepped_step
  generalize machine.step = reply at stepped ⊢
  cases stepped with
  | waits => simp [StepOutcome.draws]
  | passes => simp [StepOutcome.draws, modifyState, remember, State.advance]
  | runs free known executed =>
      rw [draws_ofState free known executed, executed]
      exact Instruction.redraw_execute ..

theorem screen_step (still : machine.step.value.draws = false) :
    machine.step.machine.state.screen = machine.state.screen := by
  have stepped := machine.stepped_step
  generalize machine.step = reply at stepped still ⊢
  cases stepped with
  | waits | passes => rfl
  | runs free known executed =>
      rw [draws_ofState free known executed] at still
      rw [executed]
      exact Instruction.screen_execute _ _ _ _ still

/-- As long as no more states are kept than there is room for, the newest of them are kept. -/
theorem keepState_eq_take {depth : Nat} (state : State) {past : List State}
    (within : past.length ≤ depth) : keepState depth state past = (state :: past).take depth := by
  unfold keepState
  cases depth with
  | zero =>
      have nothing : past = [] := List.eq_nil_of_length_eq_zero (Nat.le_zero.mp within)
      simp [nothing]
  | succ depth =>
      by_cases full : past.length = depth + 1
      · simp [full, List.dropLast_eq_take]
      · have short : past.length ≤ depth := by omega
        simp [full, List.take_of_length_le short]

end Machine

end ChipEight
