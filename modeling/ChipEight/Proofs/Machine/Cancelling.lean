import ChipEight.Proofs.Machine.Waiting

/-!
# Waits that are given up

A machine does not remember which instruction made it wait: a wait that is given up moves the
program counter back by one word. That is the instruction that waits, since nothing moves the
counter during a wait. So the machine is back before that instruction, but for what time and
whoever looks at the picture did meanwhile, and its next step waits again.
-/

namespace ChipEight

/-- Two back from the next word is the counter itself, also across the end of the addresses. -/
theorem State.counter_advance_sub (state : State) :
    state.advance.registers.counter - 2 = state.registers.counter :=
  UInt16.add_sub_cancel _ _

namespace Machine

theorem cancelWait_of_awaiting {machine : Machine} {register : Digit}
    (awaits : machine.state.awaiting = some register) :
    machine.cancelWait =
      ⟨true, machine.modifyState fun state =>
        { state.jump (state.registers.counter - 2) with awaiting := none },
        #[.waitCancelled register]⟩ := by
  simp only [cancelWait, awaits]

theorem cancelWait_of_free {machine : Machine} (free : machine.state.awaiting = none) :
    machine.cancelWait = ⟨false, machine, #[]⟩ := by
  simp only [cancelWait, free]

section

variable {machine waited : Machine} {actions : List Action}
  (free : machine.state.awaiting = none) (family : Word.family machine.state.word = 0xF)
  (byte : Word.byte machine.state.word = 0x0A)
  (idled : Idled machine.step.machine waited actions)

include free family byte idled

theorem awaiting_of_idled :
    waited.state.awaiting = some (Word.x machine.state.word) := by
  rw [idled.awaiting_eq, (step_of_awaitKey free family byte).2]

/-- The counter has stood still since the wait began, so one word back from it is where the wait
began. -/
theorem state_cancelWait_of_idled :
    waited.cancelWait.machine.state = machine.state.afterIdling actions := by
  have back := machine.state.counter_advance_sub
  have stood := idled.state_eq
  rw [(step_of_awaitKey free family byte).2] at stood
  rw [cancelWait_of_awaiting (awaiting_of_idled free family byte idled)]
  simp only [modifyState, stood, State.afterIdling, State.jump, State.advance,
    Registers.advance] at back ⊢
  rw [back, ← free]

end

end Machine

/-- A wait that is given up, however long it was, leaves the state in which it began, but for the
timers and the wish to have the picture drawn anew. There is no second wait to give up, and the
next step waits for the same register. -/
theorem cancelWait_undoes_wait (machine : Machine) (actions : List Action)
    (free : machine.state.awaiting = none)
    (family : Word.family machine.state.word = 0xF)
    (byte : Word.byte machine.state.word = 0x0A)
    (idles : ∀ action ∈ actions, action.idles = true) :
    let waited := (machine.step.machine.run actions).machine
    let cancelled := waited.cancelWait.machine
    machine.step.value = .awaitingKey (Word.x machine.state.word) ∧
    waited.cancelWait.value = true ∧
    cancelled.state = machine.state.afterIdling actions ∧
    cancelled.cancelWait.value = false ∧ cancelled.cancelWait.machine = cancelled ∧
    cancelled.step.value = .awaitingKey (Word.x machine.state.word) := by
  intro waited cancelled
  obtain ⟨answer, began⟩ := Machine.step_of_awaitKey free family byte
  have idled : Machine.Idled machine.step.machine waited actions :=
    Machine.idled_run (by rw [began]) idles
  have given := Machine.cancelWait_of_awaiting (Machine.awaiting_of_idled free family byte idled)
  have restored := Machine.state_cancelWait_of_idled free family byte idled
  change cancelled.state = _ at restored
  have freed : cancelled.state.awaiting = none := by
    rw [restored]
    exact free
  have sameWord : cancelled.state.word = machine.state.word := by
    rw [restored]
    rfl
  have nothing := Machine.cancelWait_of_free freed
  have again := (Machine.step_of_awaitKey freed (by rw [sameWord, family])
    (by rw [sameWord, byte])).1
  rw [sameWord] at again
  exact ⟨answer, by rw [given], restored, by rw [nothing], by rw [nothing], again⟩

/-- The wait for V3, given up after idle actions of every kind, begins again. -/
theorem cancelled_wait_begins_again :
    beforeWait.state.awaiting = none ∧ Word.family beforeWait.state.word = 0xF ∧
      Word.byte beforeWait.state.word = 0x0A ∧
      (∀ action ∈ idleActions, action.idles = true) ∧
      (let waited := (beforeWait.step.machine.run idleActions).machine
      let cancelled := waited.cancelWait.machine
      waited.cancelWait.value = true ∧
        cancelled.state.registers.counter = 0x200 ∧ cancelled.state.delayTimer = 0 ∧
        cancelled.step.value = .awaitingKey (Digit.ofNat 3)) := by
  obtain ⟨free, family, byte, x⟩ := awaitKey_beforeWait
  refine ⟨free, family, byte, idles_idleActions, ?_⟩
  obtain ⟨_, known, restored, _, _, again⟩ :=
    cancelWait_undoes_wait beforeWait idleActions free family byte idles_idleActions
  rw [x] at again
  refine ⟨known, ?_, ?_, again⟩
  · rw [restored]
    rfl
  · rw [restored]
    rfl

end ChipEight
