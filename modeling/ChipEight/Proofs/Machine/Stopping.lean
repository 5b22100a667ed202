import ChipEight.Proofs.Machine.Frame
import ChipEight.Proofs.Machine.Waiting

/-!
# Frames that stop early

A frame stops taking steps as soon as a wait begins. Whoever takes all the steps that the
settings ask for instead comes to the same machine, with the same answer and the same notices:
a machine that waits does not step, keeps no state, draws no random byte and reports nothing.
-/

namespace ChipEight

namespace Machine

/-- So many steps one after the other, whether or not a wait begins. -/
def steps (machine : Machine) (count : Nat) : Reply (List Answer) :=
  machine.run (List.replicate count .step)

variable {machine : Machine} {register : Digit}

theorem run_append (machine : Machine) (first second : List Action) :
    machine.run (first ++ second) =
      ⟨(machine.run first).value ++ ((machine.run first).machine.run second).value,
        ((machine.run first).machine.run second).machine,
        (machine.run first).notices ++ ((machine.run first).machine.run second).notices⟩ := by
  induction first generalizing machine with
  | nil => simp
  | cons action later ih => simp [run, ih]

@[simp]
theorem steps_zero (machine : Machine) : machine.steps 0 = ⟨[], machine, #[]⟩ :=
  rfl

theorem steps_succ (machine : Machine) (count : Nat) :
    machine.steps (count + 1) =
      ⟨.outcome machine.step.value :: (machine.step.machine.steps count).value,
        (machine.step.machine.steps count).machine,
        machine.step.notices ++ (machine.step.machine.steps count).notices⟩ :=
  rfl

theorem steps_add (machine : Machine) (first second : Nat) :
    machine.steps (first + second) =
      ⟨(machine.steps first).value ++ ((machine.steps first).machine.steps second).value,
        ((machine.steps first).machine.steps second).machine,
        (machine.steps first).notices ++ ((machine.steps first).machine.steps second).notices⟩ := by
  rw [steps, ← List.replicate_append_replicate, run_append]
  rfl

theorem machine_steps (machine : Machine) (count : Nat) :
    (machine.steps count).machine = machine.afterSteps count := by
  induction count generalizing machine with
  | zero => rfl
  | succ count ih => exact ih machine.step.machine

/-- Steps of a machine that waits are no steps. -/
theorem steps_of_awaiting (awaits : machine.state.awaiting = some register) (count : Nat) :
    machine.steps count =
      ⟨List.replicate count (.outcome (.awaitingKey register)), machine, #[]⟩ := by
  induction count with
  | zero => rfl
  | succ count ih =>
      rw [steps_succ, step_of_awaiting awaits, ih]
      rfl

/-- A step answers that a key is awaited exactly if it leaves the machine waiting. -/
theorem value_step_eq_awaitingKey_iff :
    machine.step.value = .awaitingKey register ↔
      machine.step.machine.state.awaiting = some register := by
  have stepped := machine.stepped_step
  generalize machine.step = reply at stepped ⊢
  cases stepped with
  | waits awaits => simp [awaits]
  | passes free => simp [modifyState, remember, State.advance, free]
  | @runs instruction effect =>
      cases awaiting : effect.state.awaiting <;> simp [StepOutcome.ofState, awaiting]

/-- Going on until a wait begins is going on, since nothing happens after that. -/
theorem stepOn_eq_steps (count : Nat) (reply : Reply StepOutcome)
    (begun : ∀ register, reply.value = .awaitingKey register →
      reply.machine.state.awaiting = some register) :
    let rest := reply.machine.steps count
    (stepOn count reply).machine = rest.machine ∧
      (stepOn count reply).notices = reply.notices ++ rest.notices ∧
      (Answer.outcome reply.value :: rest.value).getLast? =
        some (.outcome (stepOn count reply).value) := by
  induction count generalizing reply with
  | zero => simp [stepOn]
  | succ count ih =>
      cases outcome : reply.value with
      | awaitingKey register =>
          have stopped : stepOn (count + 1) reply = reply := by
            simp [stepOn, outcome, StepOutcome.isWait]
          rw [stopped, steps_of_awaiting (begun register outcome), outcome]
          refine ⟨rfl, by simp, ?_⟩
          rw [← List.replicate_succ, List.getLast?_replicate, if_neg (Nat.succ_ne_zero _)]
      | executed | unknown =>
          have goesOn : stepOn (count + 1) reply = stepOn count (reply.andThen step) := by
            simp [stepOn, outcome, StepOutcome.isWait]
          obtain ⟨machines, notices, last⟩ :=
            ih (reply.andThen step) fun register => value_step_eq_awaitingKey_iff.mp
          rw [goesOn, steps_succ]
          refine ⟨machines, ?_, ?_⟩
          · rw [notices, Reply.andThen, Array.append_assoc]
          · rw [List.getLast?_cons_cons]
            exact last

/-- A frame takes all its steps, as far as anyone can tell, and then lets the timers tick. -/
theorem runFrame_eq_steps (machine : Machine) :
    let plain := machine.steps machine.settings.cyclesPerTick.toNat
    machine.runFrame.machine = plain.machine.tickTimers ∧
      machine.runFrame.notices = plain.notices ∧
      plain.value.getLast? = some (.outcome machine.runFrame.value) := by
  obtain ⟨count, cycles⟩ : ∃ count, machine.settings.cyclesPerTick.toNat = count + 1 :=
    Nat.exists_eq_succ_of_ne_zero (Nat.one_le_iff_ne_zero.mp machine.settings.one_le_cyclesPerTick)
  obtain ⟨machines, notices, last⟩ :=
    stepOn_eq_steps count machine.step fun register => value_step_eq_awaitingKey_iff.mp
  simp only [runFrame, cycles, Nat.add_sub_cancel, steps_succ]
  exact ⟨congrArg tickTimers machines, notices, last⟩

section

variable {count : Nat}

theorem last_steps_of_awaiting (positive : count ≠ 0)
    (awaits : (machine.steps count).machine.state.awaiting = some register) :
    (machine.steps count).value.getLast? = some (.outcome (.awaitingKey register)) := by
  obtain ⟨earlier, rfl⟩ := Nat.exists_eq_succ_of_ne_zero positive
  rw [Nat.succ_eq_add_one, steps_add] at awaits ⊢
  rw [List.getLast?_append]
  have waits := value_step_eq_awaitingKey_iff.mpr awaits
  exact congrArg (fun outcome => some (Answer.outcome outcome)) waits

/-- Once a wait has begun, further steps change nothing and report nothing. -/
theorem steps_of_begun {earlier : Nat} (within : earlier ≤ count)
    (begun : (machine.steps earlier).machine.state.awaiting = some register) :
    (machine.steps count).machine = (machine.steps earlier).machine ∧
      (machine.steps count).notices = (machine.steps earlier).notices := by
  obtain ⟨rest, rfl⟩ := Nat.exists_eq_add_of_le within
  rw [steps_add, steps_of_awaiting begun]
  exact ⟨rfl, Array.append_empty⟩

end

end Machine

/-- A frame is all the steps that the settings ask for and one tick of each timer, although it
stops stepping when a wait begins. If the machine waits after some of the steps, the frame runs
nothing behind them. -/
theorem runFrame_is_steps_and_tick (machine : Machine) :
    let cycles := machine.settings.cyclesPerTick.toNat
    let plain := machine.steps cycles
    let frame := machine.runFrame
    (frame.machine = plain.machine.tickTimers ∧ frame.notices = plain.notices ∧
      plain.value.getLast? = some (.outcome frame.value)) ∧
    frame.machine =
      { plain.machine with
        state := { plain.machine.state with
          delayTimer := timerAfter plain.machine.state.delayTimer 1
          soundTimer := timerAfter plain.machine.state.soundTimer 1 } } ∧
    ∀ (count : Nat) (register : Digit), count ≤ cycles →
      (machine.steps count).machine.state.awaiting = some register →
      frame.value = .awaitingKey register ∧
        frame.machine = (machine.steps count).machine.tickTimers ∧
        frame.notices = (machine.steps count).notices := by
  intro cycles plain frame
  obtain ⟨machines, notices, last⟩ := machine.runFrame_eq_steps
  refine ⟨⟨machines, notices, last⟩, ?_, ?_⟩
  · rw [timerAfter_one, timerAfter_one]
    exact machines
  · intro count register within begun
    obtain ⟨stands, silent⟩ := Machine.steps_of_begun within begun
    have awaits : plain.machine.state.awaiting = some register := by
      rw [stands]
      exact begun
    have positive : cycles ≠ 0 := Nat.one_le_iff_ne_zero.mp machine.settings.one_le_cyclesPerTick
    have lastWaits := Machine.last_steps_of_awaiting positive awaits
    rw [last, Option.some_inj] at lastWaits
    exact ⟨Answer.outcome.inj lastWaits, machines.trans (congrArg Machine.tickTimers stands),
      notices.trans silent⟩

end ChipEight
