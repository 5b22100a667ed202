import ChipEight.Proofs.Machine.Forgetting
import ChipEight.Proofs.Machine.Redraw
import ChipEight.Proofs.Machine.Stopping

/-!
# Steps that are taken back and taken again

A machine that goes back over its last steps and takes them again does the same once more, if
no step drew a random byte: the random bytes are the only thing that going back leaves where it
was. The restored state is marked as one whose picture may have changed, and the oldest states
that the first time pushed out do not come back; a step looks at neither.
-/

namespace ChipEight

namespace Machine

/-- The part of a machine that a step looks at: all but its past and the mark of its state. -/
def present (machine : Machine) : Machine := machine.forgetful.unmarked

theorem step_overlooks_rest : Overlooks present step :=
  step_overlooks_past.comp step_overlooks_marks fun _ => rfl

theorem erased_steps {first second : Machine} (alike : first.present = second.present)
    (count : Nat) : (first.steps count).erased present = (second.steps count).erased present := by
  apply erased_run _ alike
  intro action member
  rw [List.eq_of_mem_replicate member]
  exact step_overlooks_rest.map _

/-- The states before so many steps, the newest first. -/
def trail (machine : Machine) (count : Nat) : List State :=
  (List.range count).reverse.map fun number => (machine.afterSteps number).state

section

variable (machine : Machine) (count : Nat)

@[simp]
theorem length_trail : (machine.trail count).length = count := by
  simp [trail]

theorem trail_succ :
    machine.trail (count + 1) = (machine.afterSteps count).state :: machine.trail count := by
  simp [trail, List.range_succ]

/-- The oldest state of a trail is the one before the first step. -/
theorem trail_succ_concat :
    machine.trail (count + 1) = machine.step.machine.trail count ++ [machine.state] := by
  simp [trail, List.range_succ_eq_map, afterSteps_succ, Function.comp_def]

end

variable {machine : Machine} {count : Nat}

theorem settings_afterSteps (machine : Machine) (count : Nat) :
    (machine.afterSteps count).settings = machine.settings :=
  afterSteps_keeps settings settings_step machine count

theorem keypad_afterSteps (machine : Machine) (count : Nat) :
    (machine.afterSteps count).keypad = machine.keypad :=
  afterSteps_keeps keypad keypad_step machine count

theorem random_afterSteps
    (steady : ∀ number < count, Word.family (machine.afterSteps number).state.word ≠ 0xC) :
    (machine.afterSteps count).random = machine.random := by
  induction count with
  | zero => rfl
  | succ count ih =>
      have still : (machine.afterSteps count).drawsRandom = false := by
        simp [drawsRandom, steady count count.lt_succ_self]
      rw [afterSteps_succ_last, random_step, still]
      exact ih fun number before => steady number (Nat.lt_succ_of_lt before)

/-! ## What the steps leave in the past -/

theorem past_step_of_free (free : machine.state.awaiting = none) :
    machine.step.machine.past =
      keepState machine.settings.historyDepth machine.state machine.past := by
  rw [past_step, if_neg (by simp [isAwaitingKey, free])]
  rfl

/-- Steps that find room put their states in front of the past. A past over the limit, which
no machine comes to, would grow on. -/
theorem past_afterSteps_of_room (fits : count ≤ machine.settings.historyDepth)
    (room : machine.past.length + count ≤ machine.settings.historyDepth ∨
      machine.settings.historyDepth < machine.past.length)
    (free : ∀ number < count, (machine.afterSteps number).state.awaiting = none) :
    (machine.afterSteps count).past = machine.trail count ++ machine.past := by
  induction count with
  | zero => rfl
  | succ count ih =>
      have before := ih (Nat.le_of_succ_le fits) (by omega)
        fun number before => free number (Nat.lt_succ_of_lt before)
      have keeps : machine.settings.historyDepth ≠ 0 := by omega
      have notFull : (machine.trail count ++ machine.past).length ≠
          machine.settings.historyDepth := by
        rw [List.length_append, length_trail]
        omega
      rw [afterSteps_succ_last, past_step_of_free (free count count.lt_succ_self), before,
        settings_afterSteps, keepState, if_neg keeps, if_neg notFull, trail_succ]
      rfl

/-- As many steps as states are kept leave all their states behind, and of the past before them
what there is room for: so much that the same number of steps finds room behind it. -/
theorem exists_past_afterSteps (fits : count ≤ machine.settings.historyDepth)
    (free : ∀ number < count, (machine.afterSteps number).state.awaiting = none) :
    ∃ older, (machine.afterSteps count).past = machine.trail count ++ older ∧
      (older.length + count ≤ machine.settings.historyDepth ∨
        machine.settings.historyDepth < older.length) := by
  induction count with
  | zero => exact ⟨machine.past, rfl, (Nat.lt_or_ge ..).symm⟩
  | succ count ih =>
      obtain ⟨older, past, room⟩ :=
        ih (Nat.le_of_succ_le fits) fun number before => free number (Nat.lt_succ_of_lt before)
      have keeps : machine.settings.historyDepth ≠ 0 := by omega
      have length : (machine.trail count ++ older).length = count + older.length := by
        rw [List.length_append, length_trail]
      rw [afterSteps_succ_last, past_step_of_free (free count count.lt_succ_self), past,
        settings_afterSteps, trail_succ, keepState, if_neg keeps, length]
      by_cases full : count + older.length = machine.settings.historyDepth
      · have notEmpty : older ≠ [] := by
          rintro rfl
          rw [List.length_nil] at full
          omega
        rw [if_pos full, List.dropLast_append_of_ne_nil notEmpty]
        refine ⟨older.dropLast, rfl, .inl ?_⟩
        rw [List.length_dropLast]
        omega
      · rw [if_neg full]
        exact ⟨older, rfl, by omega⟩

theorem rewind_of_past {state : State} {older : List State}
    (past : machine.past = state :: older) :
    machine.rewind =
      ⟨true, { machine with state := { state with redraw := true }, past := older }, #[]⟩ := by
  simp only [rewind, past]

/-- Going back over states of the past ends at the last of them. -/
theorem run_replicate_rewind (machine : Machine) {newer older : List State} {state : State}
    (past : machine.past = newer ++ state :: older) :
    machine.run (List.replicate (newer.length + 1) .rewind) =
      ⟨List.replicate (newer.length + 1) (.done true),
        { machine with state := { state with redraw := true }, past := older }, #[]⟩ := by
  induction newer generalizing machine with
  | nil => simp [run, perform, rewind_of_past past]
  | cons newest newer ih =>
      have later := ih (machine.perform .rewind).machine
        (congrArg (fun reply => reply.machine.past) (rewind_of_past past))
      rw [List.length_cons, List.replicate_succ, run, later, perform, rewind_of_past past]
      rfl

/-- Going back over steps just taken leads to the state before them. The states that the steps
pushed out of the past stay away, so there is room to take the steps again. -/
theorem exists_past_run_rewind (fits : count ≤ machine.settings.historyDepth)
    (free : ∀ number < count, (machine.afterSteps number).state.awaiting = none)
    (steady : ∀ number < count, Word.family (machine.afterSteps number).state.word ≠ 0xC) :
    let back := (machine.afterSteps count).run (List.replicate count .rewind)
    ∃ older, (machine.afterSteps count).past = machine.trail count ++ older ∧
      (older.length + count ≤ machine.settings.historyDepth ∨
        machine.settings.historyDepth < older.length) ∧
      back.value = List.replicate count (.done true) ∧ back.machine.past = older ∧
      back.machine.settings = machine.settings ∧ back.machine.present = machine.present := by
  obtain ⟨older, past, room⟩ := exists_past_afterSteps fits free
  refine ⟨older, past, room, ?_⟩
  cases count with
  | zero => exact ⟨rfl, past, rfl, rfl⟩
  | succ count =>
      have settings := machine.settings_afterSteps (count + 1)
      have keypad := machine.keypad_afterSteps (count + 1)
      have random := random_afterSteps steady
      rw [trail_succ_concat, List.append_assoc, List.singleton_append] at past
      have rewound := run_replicate_rewind _ past
      rw [length_trail] at rewound
      rw [rewound]
      refine ⟨rfl, rfl, settings, ?_⟩
      simp only [present, forgetful, unmarked, settings, keypad, random]
      rfl

/-! ## The second time -/

section

variable {first second : Machine} (alike : first.present = second.present)

include alike

theorem present_afterSteps (count : Nat) :
    (first.afterSteps count).present = (second.afterSteps count).present := by
  rw [← machine_steps, ← machine_steps]
  exact (erased_eq_iff.mp (erased_steps alike count)).2.1

theorem unmarked_state_afterSteps (count : Nat) :
    (first.afterSteps count).state.unmarked = (second.afterSteps count).state.unmarked :=
  congrArg Machine.state (present_afterSteps alike count)

theorem map_unmarked_trail (count : Nat) :
    (first.trail count).map State.unmarked = (second.trail count).map State.unmarked := by
  simp only [trail, List.map_map]
  exact List.map_congr_left fun number _ => unmarked_state_afterSteps alike number

end

end Machine

/-- Steps that are taken back and taken again answer the same and lead to the same machine, if
none of them drew a random byte and as many states are kept. Only the marks of the state and
of the states before those steps can differ. -/
theorem rewound_steps_replay (machine : Machine) (count : Nat)
    (fits : count ≤ machine.settings.historyDepth)
    (free : ∀ number < count, (machine.afterSteps number).state.awaiting = none)
    (steady : ∀ number < count, Word.family (machine.afterSteps number).state.word ≠ 0xC) :
    let first := machine.steps count
    let back := first.machine.run (List.replicate count .rewind)
    let again := back.machine.steps count
    back.value = List.replicate count (.done true) ∧
    again.value = first.value ∧ again.notices = first.notices ∧
    again.machine.settings = first.machine.settings ∧
    again.machine.keypad = first.machine.keypad ∧
    again.machine.random = first.machine.random ∧
    again.machine.state.unmarked = first.machine.state.unmarked ∧
    (again.machine.past.take count).map State.unmarked =
      (first.machine.past.take count).map State.unmarked ∧
    again.machine.past.drop count = first.machine.past.drop count := by
  intro first back again
  have firstMachine : first.machine = machine.afterSteps count := machine.machine_steps count
  have againMachine : again.machine = back.machine.afterSteps count :=
    back.machine.machine_steps count
  obtain ⟨older, past, room, wentBack, rest, settings, alike⟩ :=
    Machine.exists_past_run_rewind fits free steady
  rw [← firstMachine] at past wentBack rest settings alike
  obtain ⟨answers, present, notices⟩ := Machine.erased_eq_iff.mp (Machine.erased_steps alike count)
  have freeAgain : ∀ number < count,
      (back.machine.afterSteps number).state.awaiting = none := by
    intro number before
    exact (congrArg State.awaiting (Machine.unmarked_state_afterSteps alike number)).trans
      (free number before)
  have pastAgain : again.machine.past = back.machine.trail count ++ older := by
    rw [againMachine, ← rest]
    apply Machine.past_afterSteps_of_room _ _ freeAgain
    · rw [settings]
      exact fits
    · rw [rest, settings]
      exact room
  have keypad := congrArg Machine.keypad present
  have random := congrArg Machine.random present
  have state := congrArg Machine.state present
  refine ⟨wentBack, answers, notices, ?_, keypad, random, state, ?_, ?_⟩
  · rw [againMachine, firstMachine, Machine.settings_afterSteps, Machine.settings_afterSteps,
      settings]
  · rw [pastAgain, past, List.take_left' (Machine.length_trail ..),
      List.take_left' (Machine.length_trail ..)]
    exact Machine.map_unmarked_trail alike count
  · rw [pastAgain, past, List.drop_left' (Machine.length_trail ..),
      List.drop_left' (Machine.length_trail ..)]

theorem Machine.step_of_clear {machine : Machine} (free : machine.state.awaiting = none)
    (word : machine.state.word = 0x00E0) :
    machine.step.value = .executed 0x00E0 ∧ machine.step.machine.state.awaiting = none ∧
      machine.step.machine.state.memory = machine.state.memory ∧
      machine.step.machine.state.registers.counter = machine.state.registers.counter + 2 := by
  have known : Instruction.ofWord? machine.state.word = some .clear := by
    rw [word]
    rfl
  have awaiting : machine.state.advance.awaiting = none := free
  rw [step_of_known free known, word]
  exact ⟨by simp [StepOutcome.ofState, Instruction.execute, awaiting], free, rfl, rfl⟩

/-- Clears the screen twice and waits for a key. -/
def clearAndWait : Array UInt8 := #[0x00, 0xE0, 0x00, 0xE0, 0xF3, 0x0A]

theorem word_clearAndWait {state : State}
    (loaded : state.memory = Memory.initial.load 0x200 clearAndWait) :
    (state.registers.counter = 0x200 → state.word = 0x00E0) ∧
      (state.registers.counter = 0x202 → state.word = 0x00E0) ∧
      (state.registers.counter = 0x204 → state.word = 0xF30A) := by
  refine ⟨?_, ?_, ?_⟩
  all_goals
    intro here
    simp [State.word, loaded, here, clearAndWait, Memory.read_load, Memory.room, Memory.size]

/-- With room for two states, a first step clears the screen, and two more clear it again and
begin the wait. -/
theorem steps_clearAndWait {loaded : Machine} (free : loaded.state.awaiting = none)
    (memory : loaded.state.memory = Memory.initial.load 0x200 clearAndWait)
    (counter : loaded.state.registers.counter = 0x200)
    (depth : loaded.settings.historyDepth = 2) (past : loaded.past = []) :
    let machine := loaded.step.machine
    2 ≤ machine.settings.historyDepth ∧
      (∀ number < 2, (machine.afterSteps number).state.awaiting = none) ∧
      (∀ number < 2, Word.family (machine.afterSteps number).state.word ≠ 0xC) ∧
      machine.past = [loaded.state] ∧
      (machine.steps 2).value =
        [.outcome (.executed 0x00E0), .outcome (.awaitingKey (Digit.ofNat 3))] := by
  obtain ⟨first, second, third⟩ : (0x200 : UInt16) + 2 = 0x202 ∧ (0x202 : UInt16) + 2 = 0x204 ∧
      Word.x 0xF30A = Digit.ofNat 3 := by decide
  obtain ⟨-, going, kept, advanced⟩ :=
    Machine.step_of_clear free ((word_clearAndWait memory).1 counter)
  rw [memory] at kept
  rw [counter, first] at advanced
  have clears := (word_clearAndWait kept).2.1 advanced
  obtain ⟨cleared, still, keptAgain, advancedAgain⟩ := Machine.step_of_clear going clears
  rw [kept] at keptAgain
  rw [advanced, second] at advancedAgain
  have waits := (word_clearAndWait keptAgain).2.2 advancedAgain
  have awaits := Machine.step_of_awaitKey still (by rw [waits]; decide) (by rw [waits]; decide)
  refine ⟨?_, ?_, ?_, ?_, ?_⟩
  · rw [Machine.settings_step]
    exact Nat.le_of_eq depth.symm
  · rintro (_ | _ | number) before
    · exact going
    · exact still
    · omega
  · rintro (_ | _ | number) before
    · rw [Machine.afterSteps_zero, clears]
      decide
    · rw [Machine.afterSteps_succ, Machine.afterSteps_zero, waits]
      decide
    · omega
  · rw [Machine.past_step_of_free free, depth, past]
    rfl
  · simp only [Machine.steps_succ, Machine.steps_zero, cleared, awaits.1, waits, third]

/-- A machine that is about to clear its screen, with room for two states. -/
def beforeClears : Machine :=
  ((Machine.start { historyDepth := 2 } 0).run [.loadProgram 0x200 clearAndWait]).machine

/-- After a first step the machine clears the screen again, begins a wait, goes back over both and
takes them again. The state before the first step is gone by then. -/
theorem clearAndWait_replays :
    let machine := beforeClears.step.machine
    let first := machine.steps 2
    let back := first.machine.run (List.replicate 2 .rewind)
    let again := back.machine.steps 2
    2 ≤ machine.settings.historyDepth ∧
      (∀ number < 2, (machine.afterSteps number).state.awaiting = none) ∧
      (∀ number < 2, Word.family (machine.afterSteps number).state.word ≠ 0xC) ∧
      machine.past = [beforeClears.state] ∧
      first.value = [.outcome (.executed 0x00E0), .outcome (.awaitingKey (Digit.ofNat 3))] ∧
      back.value = List.replicate 2 (.done true) ∧ again.value = first.value ∧
      again.machine.state.unmarked = first.machine.state.unmarked := by
  obtain ⟨fits, free, steady, past, values⟩ :=
    @steps_clearAndWait beforeClears rfl rfl rfl rfl rfl
  have replays := rewound_steps_replay beforeClears.step.machine 2 fits free steady
  exact ⟨fits, free, steady, past, values, replays.1, replays.2.1, replays.2.2.2.2.2.2.1⟩

end ChipEight
