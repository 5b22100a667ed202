import ChipEight.Proofs.Machine.Decoding

/-!
# The order of steps and inputs

Whoever drives a machine lets its timers tick, presses and releases keys, and asks for steps, one
after the other. In most orders it makes no difference which comes first: only five words look at
the timers or at the keys, and a key that is pressed matters besides to a machine that waits for one
or is about to. What a tick leaves behind is that the state kept by a step has the timers of its
time.
-/

namespace ChipEight

theorem State.fill_tickTimers (state : State) (last : Digit) :
    state.tickTimers.fill last = (state.fill last).tickTimers := by
  unfold fill passRegisters setIndex tickTimers tickDelay tickSound
  rfl

namespace Instruction

/-- Whether an instruction reads or sets a timer. -/
def usesTimers : Instruction → Bool
  | .readDelay _ | .setDelay _ | .setSound _ => true
  | _ => false

/-- Whether an instruction asks for the keys that are down. -/
def asksKeypad : Instruction → Bool
  | .skipIfDown _ | .skipUnlessDown _ => true
  | _ => false

variable {instruction : Instruction} (settings : Settings) (random : Random.Generator)
  (state : State)

/-- An instruction that does not use the timers does the same before they tick and after. -/
theorem execute_tickTimers (keypad : Keypad) (other : instruction.usesTimers = false) :
    let effect := instruction.execute settings keypad random state
    instruction.execute settings keypad random state.tickTimers =
      { effect with state := effect.state.tickTimers } := by
  cases instruction with
  | readDelay | setDelay | setSound => cases other
  | leave =>
      have calls : state.tickTimers.registers.pop? = state.registers.pop? := rfl
      simp only [execute, leaveCall, calls]
      cases state.registers.pop? <;> rfl
  | call address =>
      have limited : reachedLimit? settings.stackLimit state.tickTimers =
          reachedLimit? settings.stackLimit state := rfl
      simp only [execute, enterCall, limited]
      split
      · rfl
      · cases reachedLimit? settings.stackLimit state <;> rfl
  | skipIfValue | skipUnlessValue | skipIfEqual | skipUnlessEqual | skipIfDown | skipUnlessDown =>
      simp only [execute, skipIf_eq]
      rfl
  | fill => simp only [execute, State.fill_tickTimers]
  | _ => rfl

theorem execute_keypad (keypad other : Keypad) (blind : instruction.asksKeypad = false) :
    instruction.execute settings keypad random state =
      instruction.execute settings other random state := by
  cases instruction with
  | skipIfDown | skipUnlessDown => cases blind
  | _ => rfl

variable {word : UInt16}

theorem usesTimers_of_standsFor (stands : Word.StandsFor word instruction)
    (other : ∀ byte ∈ [0x07, 0x15, 0x18], ¬ (Pattern.ofByte 0xF byte).Matches word) :
    instruction.usesTimers = false := by
  simp only [Pattern.matches_ofByte_iff] at other
  cases stands with
  | readDelay family byte | setDelay family byte | setSound family byte =>
      exact absurd ⟨family, byte⟩ (other _ (by decide))
  | _ => rfl

theorem asksKeypad_of_standsFor (stands : Word.StandsFor word instruction)
    (other : ∀ byte ∈ [0x9E, 0xA1], ¬ (Pattern.ofByte 0xE byte).Matches word) :
    instruction.asksKeypad = false := by
  simp only [Pattern.matches_ofByte_iff] at other
  cases stands with
  | skipIfDown family byte | skipUnlessDown family byte =>
      exact absurd ⟨family, byte⟩ (other _ (by decide))
  | _ => rfl

end Instruction

namespace Machine

variable {machine : Machine}

theorem step_tickTimers_of_free (free : machine.state.awaiting = none)
    (other : ∀ byte ∈ [0x07, 0x15, 0x18],
      ¬ (Pattern.ofByte 0xF byte).Matches machine.state.word) :
    machine.tickTimers.step =
      { machine.step with
        machine := { machine.step.machine.tickTimers with
          past := keepState machine.settings.historyDepth machine.state.tickTimers
            machine.past } } := by
  have stillFree : machine.tickTimers.state.awaiting = none := free
  cases decoded : Instruction.ofWord? machine.state.word with
  | none =>
      rw [step_of_unknown stillFree decoded, step_of_unknown free decoded]
      rfl
  | some instruction =>
      have blind := Instruction.usesTimers_of_standsFor
        (Instruction.standsFor_of_ofWord? decoded) other
      have effects : instruction.execute machine.tickTimers.settings machine.tickTimers.keypad
          machine.tickTimers.random machine.tickTimers.state.advance = _ :=
        Instruction.execute_tickTimers machine.settings machine.random machine.state.advance
          machine.keypad blind
      rw [step_of_known stillFree decoded, step_of_known free decoded]
      dsimp only
      rw [effects]
      rfl

/-- A step that asks for no key does the same whatever keys are down. -/
theorem step_keypad (blind : machine.isAwaitingKey = true ∨
      ∀ byte ∈ [0x9E, 0xA1], ¬ (Pattern.ofByte 0xE byte).Matches machine.state.word)
    (keypad : Keypad) :
    { machine with keypad := keypad }.step =
      { machine.step with machine := { machine.step.machine with keypad := keypad } } := by
  cases waiting : machine.state.awaiting with
  | some register =>
      simp only [step]
      rw [waiting]
  | none =>
      have other := blind.resolve_left (by simp [isAwaitingKey, waiting])
      have free : { machine with keypad := keypad }.state.awaiting = none := waiting
      cases decoded : Instruction.ofWord? machine.state.word with
      | none =>
          rw [step_of_unknown free decoded, step_of_unknown waiting decoded]
          rfl
      | some instruction =>
          have unasked := Instruction.asksKeypad_of_standsFor
            (Instruction.standsFor_of_ofWord? decoded) other
          have effects := Instruction.execute_keypad machine.settings machine.random
            machine.state.advance keypad machine.keypad unasked
          rw [step_of_known free decoded, step_of_known waiting decoded]
          dsimp only
          rw [effects]
          rfl

theorem machine_press_of_free (free : machine.state.awaiting = none) (byte : UInt8) :
    (machine.press byte).machine = { machine with keypad := machine.keypad.press byte } := by
  unfold press Keypad.press
  cases Digit.ofByte? byte with
  | none => rfl
  | some key =>
      simp only [pressKey]
      rw [free]

end Machine

/-- A step and an input come to the same in either order, unless the step runs a word that looks at
what the input changes: timers may tick before or after all words but FX07, FX15 and FX18, keys may
be released before or after all words but EX9E and EXA1, and pressed, by a machine that does not
wait, before or after all words but these two and FX0A. -/
theorem step_commutes_with_inputs (machine : Machine) :
    let word := machine.state.word
    let stepped := machine.step
    (machine.isAwaitingKey = true ∨
        (∀ byte ∈ [0x07, 0x15, 0x18], ¬ (Pattern.ofByte 0xF byte).Matches word) →
      let ticked := machine.tickTimers.step
      ticked =
        { stepped with
          machine := { stepped.machine.tickTimers with past := ticked.machine.past } } ∧
      ticked.machine.past.length = stepped.machine.past.length ∧
      (ticked.machine.past = stepped.machine.past ∨
        ∃ saved older, stepped.machine.past = saved :: older ∧
          ticked.machine.past = saved.tickTimers :: older)) ∧
    (machine.isAwaitingKey = false →
      (∀ byte ∈ [0x9E, 0xA1], ¬ (Pattern.ofByte 0xE byte).Matches word) →
      ¬ (Pattern.ofByte 0xF 0x0A).Matches word →
      ∀ byte, (machine.press byte).machine.step =
        { stepped with machine := (stepped.machine.press byte).machine }) ∧
    (machine.isAwaitingKey = true ∨
        (∀ byte ∈ [0x9E, 0xA1], ¬ (Pattern.ofByte 0xE byte).Matches word) →
      ∀ byte, (machine.release byte).step =
        { stepped with machine := stepped.machine.release byte }) := by
  intro word stepped
  refine ⟨?_, ?_, ?_⟩
  · intro untimed ticked
    cases waiting : machine.state.awaiting with
    | some register =>
        have waits : stepped = ⟨.awaitingKey register, machine, #[]⟩ :=
          Machine.step_of_awaiting waiting
        have waitsToo : ticked = ⟨.awaitingKey register, machine.tickTimers, #[]⟩ :=
          Machine.step_of_awaiting waiting
        rw [waits, waitsToo]
        exact ⟨rfl, rfl, .inl rfl⟩
    | none =>
        have other := untimed.resolve_left (by simp [Machine.isAwaitingKey, waiting])
        have same : ticked = _ := Machine.step_tickTimers_of_free waiting other
        have kept : stepped.machine.past =
            Machine.keepState machine.settings.historyDepth machine.state machine.past := by
          rw [machine.past_step, if_neg (by simp [Machine.isAwaitingKey, waiting])]
          rfl
        rw [same, kept]
        refine ⟨rfl, ?_⟩
        dsimp only
        by_cases keepsNothing : machine.settings.historyDepth = 0
        · simp only [Machine.keepState, keepsNothing, if_true, true_or, and_self]
        · simp only [Machine.keepState_of_ne_zero keepsNothing]
          exact ⟨rfl, .inr ⟨_, _, rfl, rfl⟩⟩
  · intro free unasked goesOn byte
    have awaiting : machine.state.awaiting = none := by simpa [Machine.isAwaitingKey] using free
    have stillFree : stepped.machine.state.awaiting = none := by
      rw [Machine.awaiting_step awaiting, if_neg]
      rwa [Word.isTransfer_eq_true_iff, ← Pattern.matches_ofByte_iff]
    rw [Machine.machine_press_of_free awaiting, Machine.machine_press_of_free stillFree,
      Machine.step_keypad (.inr unasked), machine.keypad_step]
  · intro unasked byte
    exact (Machine.step_keypad unasked _).trans (by rw [Machine.release, machine.keypad_step])

/-- A machine that is about to add to a register, with time on its timers and room for past
states. -/
def beforeIncrease : Machine :=
  ((Machine.start { historyDepth := 2 } 0).run
    [.loadProgram 0x200 #[0x71, 0x05], .setDelay 5, .setSound 1]).machine

/-- The timers may tick before the addition or after it, which shows in the state that is kept and
nowhere else, and a key may be pressed or released before it or after it. -/
theorem beforeIncrease_commutes :
    let word := beforeIncrease.state.word
    let stepped := beforeIncrease.step
    let ticked := beforeIncrease.tickTimers.step
    (beforeIncrease.isAwaitingKey = false ∧ word = 0x7105) ∧
      ((∀ byte ∈ [0x07, 0x15, 0x18], ¬ (Pattern.ofByte 0xF byte).Matches word) ∧
        (∀ byte ∈ [0x9E, 0xA1], ¬ (Pattern.ofByte 0xE byte).Matches word) ∧
        ¬ (Pattern.ofByte 0xF 0x0A).Matches word) ∧
      ticked =
        { stepped with
          machine := { stepped.machine.tickTimers with past := ticked.machine.past } } ∧
      stepped.machine.past.map (·.delayTimer) = [5] ∧
      ticked.machine.past.map (·.delayTimer) = [4] ∧
      (beforeIncrease.press 7).machine.step =
        { stepped with machine := (stepped.machine.press 7).machine } ∧
      (beforeIncrease.release 7).step =
        { stepped with machine := stepped.machine.release 7 } := by
  have free : beforeIncrease.isAwaitingKey = false := rfl
  have loaded : beforeIncrease.state.memory = Memory.initial.load 0x200 #[0x71, 0x05] := rfl
  have here : beforeIncrease.state.registers.counter.toNat = 0x200 := rfl
  have word_eq : beforeIncrease.state.word = 0x7105 := by
    rw [State.word_of_loaded 0 loaded here (by decide) (by decide)]
    decide
  have family : Word.family beforeIncrease.state.word = 0x7 := by
    rw [word_eq]
    rfl
  have elsewhere (first byte : Nat) (other : first ≠ 0x7) :
      ¬ (Pattern.ofByte first byte).Matches beforeIncrease.state.word :=
    fun fits => other (fits.first_eq.symm.trans family)
  have untimed : ∀ byte ∈ [0x07, 0x15, 0x18],
      ¬ (Pattern.ofByte 0xF byte).Matches beforeIncrease.state.word :=
    fun byte _ => elsewhere 0xF byte (by decide)
  have unasked : ∀ byte ∈ [0x9E, 0xA1],
      ¬ (Pattern.ofByte 0xE byte).Matches beforeIncrease.state.word :=
    fun byte _ => elsewhere 0xE byte (by decide)
  have goesOn := elsewhere 0xF 0x0A (by decide)
  obtain ⟨ticks, presses, releases⟩ := step_commutes_with_inputs beforeIncrease
  obtain ⟨same, -, -⟩ := ticks (.inr untimed)
  refine ⟨⟨free, word_eq⟩, ⟨untimed, unasked, goesOn⟩, same, ?_, ?_,
    presses free unasked goesOn 7, releases (.inr unasked) 7⟩
  · rw [beforeIncrease.past_step]
    rfl
  · rw [beforeIncrease.tickTimers.past_step]
    rfl

end ChipEight
