import ChipEight.Proofs.Machine.Picture

/-!
# Waits for a key

A machine that waits for a key stands still, whatever steps and frames it is given, until a key
is pressed: only its timers go on, keys may be released, and its picture may be taken. The first
key that is pressed is stored in the register that waits, and the machine goes on behind the
instruction that waited.
-/

namespace ChipEight

namespace Action

/-- The key that an action presses, if it presses one. -/
def pressedKey? : Action → Option Key
  | .press byte => Digit.ofByte? byte
  | .labelDown label => Keyboard.keyOfLabel? label
  | _ => none

/-- Whether an action leaves a wait alone. A byte above fifteen is no key, and neither is a
label without one. -/
def idles : Action → Bool
  | .step | .runFrame | .tickDelay | .tickSound | .tickTimers | .labelUp _ | .release _
  | .takeFrame => true
  | .labelDown label => (Keyboard.keyOfLabel? label).isNone
  | .press byte => 16 ≤ byte
  | _ => false

def runsProgram : Action → Bool
  | .step | .runFrame => true
  | _ => false

def ticksDelay : Action → Bool
  | .runFrame | .tickDelay | .tickTimers => true
  | _ => false

def ticksSound : Action → Bool
  | .runFrame | .tickSound | .tickTimers => true
  | _ => false

def takesFrame : Action → Bool
  | .takeFrame => true
  | _ => false

end Action

/-- A timer after so many ticks. It stops at zero. -/
def timerAfter (timer : UInt8) (ticks : Nat) : UInt8 := UInt8.ofNat (timer.toNat - ticks)

theorem toNat_timerAfter (timer : UInt8) (ticks : Nat) :
    (timerAfter timer ticks).toNat = timer.toNat - ticks := by
  have bound := timer.toNat_lt
  rw [timerAfter, UInt8.toNat_ofNat']
  omega

@[simp]
theorem timerAfter_zero (timer : UInt8) : timerAfter timer 0 = timer := by
  simp [timerAfter]

theorem timerAfter_timerAfter (timer : UInt8) (first second : Nat) :
    timerAfter (timerAfter timer first) second = timerAfter timer (first + second) := by
  rw [← UInt8.toNat_inj]
  simp only [toNat_timerAfter]
  omega

theorem timerAfter_one (timer : UInt8) :
    timerAfter timer 1 = if timer = 0 then 0 else timer - 1 := by
  rw [← UInt8.toNat_inj, toNat_timerAfter]
  split
  · next zero => rw [zero]; rfl
  · next running =>
      have positive : timer.toNat ≠ 0 := fun zero => running (UInt8.toNat_inj.mp zero)
      have bound := timer.toNat_lt
      rw [UInt8.toNat_sub]
      simp
      omega

/-- A state after idle actions. Only the timers go on, and the picture may have been taken. -/
def State.afterIdling (state : State) (actions : List Action) : State :=
  { state with
    delayTimer := timerAfter state.delayTimer (actions.countP Action.ticksDelay)
    soundTimer := timerAfter state.soundTimer (actions.countP Action.ticksSound)
    redraw := state.redraw && !actions.any Action.takesFrame }

theorem State.afterIdling_afterIdling (state : State) (earlier later : List Action) :
    (state.afterIdling earlier).afterIdling later = state.afterIdling (earlier ++ later) := by
  simp [afterIdling, timerAfter_timerAfter, Bool.and_assoc]

theorem State.afterIdling_singleton (state : State) (action : Action) :
    state.afterIdling [action] =
      { state with
        delayTimer := if action.ticksDelay then state.tickDelay.delayTimer else state.delayTimer
        soundTimer := if action.ticksSound then state.tickSound.soundTimer else state.soundTimer
        redraw := if action.takesFrame then false else state.redraw } := by
  cases delays : action.ticksDelay <;> cases sounds : action.ticksSound <;>
    cases takes : action.takesFrame <;>
    simp [afterIdling, delays, sounds, takes, timerAfter_one, tickDelay, tickSound]

namespace Machine

/-- What a machine that waits for a key keeps, and how far its timers go on. -/
structure Idled (before after : Machine) (actions : List Action) : Prop where
  settings_eq : after.settings = before.settings
  past_eq : after.past = before.past
  random_eq : after.random = before.random
  state_eq : after.state = before.state.afterIdling actions

theorem Idled.refl (machine : Machine) : Idled machine machine [] :=
  ⟨rfl, rfl, rfl, by simp [State.afterIdling]⟩

theorem Idled.trans {first second third : Machine} {earlier later : List Action}
    (before : Idled first second earlier) (after : Idled second third later) :
    Idled first third (earlier ++ later) where
  settings_eq := after.settings_eq.trans before.settings_eq
  past_eq := after.past_eq.trans before.past_eq
  random_eq := after.random_eq.trans before.random_eq
  state_eq := by
    rw [after.state_eq, before.state_eq, State.afterIdling_afterIdling]

theorem Idled.awaiting_eq {before after : Machine} {actions : List Action}
    (idled : Idled before after actions) : after.state.awaiting = before.state.awaiting := by
  rw [idled.state_eq, State.afterIdling]

theorem Idled.machine_eq {before after : Machine} {actions : List Action}
    (idled : Idled before after actions) :
    after =
      { before with keypad := after.keypad, state := before.state.afterIdling actions } := by
  obtain ⟨settings, state, past, keypad, random⟩ := after
  obtain ⟨rfl, rfl, rfl, rfl⟩ := idled
  rfl

variable {machine : Machine} {register : Digit}

theorem Idled.of_state_eq {after : Machine} {action : Action}
    (settings : after.settings = machine.settings) (past : after.past = machine.past)
    (random : after.random = machine.random)
    (state : after.state =
      { machine.state with
        delayTimer :=
          if action.ticksDelay then machine.state.tickDelay.delayTimer else machine.state.delayTimer
        soundTimer :=
          if action.ticksSound then machine.state.tickSound.soundTimer else machine.state.soundTimer
        redraw := if action.takesFrame then false else machine.state.redraw }) :
    Idled machine after [action] :=
  ⟨settings, past, random, state.trans (State.afterIdling_singleton _ _).symm⟩

theorem random_takeFrame (machine : Machine) :
    machine.takeFrame.machine.random = machine.random := by
  unfold takeFrame
  cases machine.state.redraw <;> rfl

theorem state_takeFrame (machine : Machine) :
    machine.takeFrame.machine.state = { machine.state with redraw := false } := by
  unfold takeFrame
  cases offers : machine.state.redraw with
  | true => rfl
  | false =>
      have same : machine.state = { machine.state with redraw := false } := by rw [← offers]
      exact same

section

variable (awaits : machine.state.awaiting = some register)

include awaits

theorem runFrame_of_awaiting :
    machine.runFrame = ⟨.awaitingKey register, machine.tickTimers, #[]⟩ := by
  have stopped (count : Nat) : stepOn count machine.step = machine.step := by
    rw [step_of_awaiting awaits]
    cases count <;> rfl
  rw [runFrame, stopped, step_of_awaiting awaits]

theorem idled_perform {action : Action} (idles : action.idles = true) :
    Idled machine (machine.perform action).machine [action] := by
  cases action with
  | step =>
      change Idled machine machine.step.machine _
      rw [step_of_awaiting awaits]
      exact .of_state_eq rfl rfl rfl rfl
  | runFrame =>
      change Idled machine machine.runFrame.machine _
      rw [runFrame_of_awaiting awaits]
      exact .of_state_eq rfl rfl rfl rfl
  | tickDelay | tickSound | tickTimers | release => exact .of_state_eq rfl rfl rfl rfl
  | takeFrame =>
      exact .of_state_eq machine.settings_takeFrame machine.past_takeFrame
        machine.random_takeFrame machine.state_takeFrame
  | labelUp label =>
      change Idled machine (machine.labelUp label).machine _
      unfold labelUp
      cases Keyboard.keyOfLabel? label <;> exact .of_state_eq rfl rfl rfl rfl
  | labelDown label =>
      have unmapped : Keyboard.keyOfLabel? label = none := Option.isNone_iff_eq_none.mp idles
      change Idled machine (machine.labelDown label).machine _
      simp only [labelDown, unmapped]
      exact .of_state_eq rfl rfl rfl rfl
  | press byte =>
      have large : 16 ≤ byte.toNat := of_decide_eq_true idles
      have unknown := Digit.ofByte?_eq_none_iff.mpr large
      change Idled machine (machine.press byte).machine _
      simp only [press, unknown]
      exact .of_state_eq rfl rfl rfl rfl
  | _ => cases idles

theorem idled_run {actions : List Action} (idles : ∀ action ∈ actions, action.idles = true) :
    Idled machine (machine.run actions).machine actions := by
  induction actions generalizing machine with
  | nil => exact .refl machine
  | cons action later ih =>
      rw [List.forall_mem_cons] at idles
      have first := idled_perform awaits idles.1
      exact first.trans (ih (first.awaiting_eq.trans awaits) idles.2)

theorem value_perform_of_awaiting {action : Action} (runs : action.runsProgram = true) :
    (machine.perform action).value = .outcome (.awaitingKey register) := by
  cases action with
  | step =>
      change Answer.outcome machine.step.value = _
      rw [step_of_awaiting awaits]
  | runFrame =>
      change Answer.outcome machine.runFrame.value = _
      rw [runFrame_of_awaiting awaits]
  | _ => cases runs

/-- Every step and every frame that a waiting machine is given answers that it waits. -/
theorem value_run_of_awaiting {actions : List Action}
    (idles : ∀ action ∈ actions, action.idles = true) {number : Nat}
    (within : number < actions.length) (runs : actions[number].runsProgram = true) :
    (machine.run actions).value[number]? = some (.outcome (.awaitingKey register)) := by
  induction actions generalizing machine number with
  | nil => exact absurd within (Nat.not_lt_zero number)
  | cons action later ih =>
      rw [List.forall_mem_cons] at idles
      cases number with
      | zero => exact congrArg some (value_perform_of_awaiting awaits runs)
      | succ number =>
          have still := (idled_perform awaits idles.1).awaiting_eq.trans awaits
          exact ih still idles.2 (Nat.lt_of_succ_lt_succ within) runs

theorem machine_pressKey_of_awaiting (key : Key) :
    (machine.pressKey key).machine =
      { machine with
        keypad := machine.keypad.set key true
        state := { machine.state with
          registers := machine.state.registers.write register (Digit.toByte key)
          awaiting := none } } := by
  simp only [pressKey, awaits]
  rfl

end

theorem machine_perform_of_pressedKey? {action : Action} {key : Key}
    (pressed : action.pressedKey? = some key) :
    (machine.perform action).machine = (machine.pressKey key).machine := by
  cases action with
  | press byte =>
      change (machine.press byte).machine = _
      rw [press, show Digit.ofByte? byte = some key from pressed]
  | labelDown label =>
      change (machine.labelDown label).machine = _
      rw [labelDown, show Keyboard.keyOfLabel? label = some key from pressed]
      rfl
  | _ => cases pressed

theorem notices_step_of_free (free : machine.state.awaiting = none) :
    machine.step.notices[0]? = some (fetchNotice machine.state) := by
  have stepped := machine.stepped_step
  generalize machine.step = reply at stepped ⊢
  cases stepped with
  | waits awaits =>
      rw [free] at awaits
      cases awaits
  | passes => rfl
  | runs => exact Array.getElem?_append_left Nat.zero_lt_one

section

variable (free : machine.state.awaiting = none) (family : Word.family machine.state.word = 0xF)
  (byte : Word.byte machine.state.word = 0x0A)

include free family byte

/-- How a wait begins. -/
theorem step_of_awaitKey :
    machine.step.value = .awaitingKey (Word.x machine.state.word) ∧
      machine.step.machine =
        { machine.remember with
          state := { machine.state.advance with
            awaiting := some (Word.x machine.state.word) } } := by
  have known : Instruction.ofWord? machine.state.word =
      some (.awaitKey (Word.x machine.state.word)) := by
    simp only [Instruction.ofWord?, family, byte]
    rfl
  simp only [step, free, runWord, known]
  exact ⟨rfl, rfl⟩

end

end Machine

/-- A wait goes on through steps, frames, ticks, releases and whatever presses no key, and only
the timers and the wish to have the picture drawn anew change meanwhile. The first key that is
pressed ends it: the key is down, the register holds it, and the next step goes on where the
machine stands. -/
theorem first_key_ends_wait (machine : Machine) (register : Digit) (actions : List Action)
    (awaits : machine.state.awaiting = some register)
    (idles : ∀ action ∈ actions, action.idles = true) :
    let reply := machine.run actions
    let after := reply.machine
    (∀ (number : Nat) (within : number < actions.length), actions[number].runsProgram = true →
      reply.value[number]? = some (.outcome (.awaitingKey register))) ∧
    (after.state.awaiting = some register ∧
      after =
        { machine with
          keypad := after.keypad
          state := machine.state.afterIdling actions }) ∧
    ∀ (action : Action) (key : Key), action.pressedKey? = some key →
      let resumed := (after.perform action).machine
      resumed =
        { after with
          keypad := after.keypad.set key true
          state := { after.state with
            registers := after.state.registers.write register (Digit.toByte key)
            awaiting := none } } ∧
      resumed.state.v register = Digit.toByte key ∧ resumed.keypad.holds key = true ∧
      resumed.step.notices[0]? =
        some (.fetched machine.state.word resumed.state.registers.v machine.state.registers.index
          machine.state.registers.counter) := by
  intro reply after
  have idled : Machine.Idled machine after actions := Machine.idled_run awaits idles
  have still : after.state.awaiting = some register := idled.awaiting_eq.trans awaits
  refine ⟨fun number within runs => Machine.value_run_of_awaiting awaits idles within runs,
    ⟨still, idled.machine_eq⟩, ?_⟩
  intro action key pressed resumed
  have resumed_eq := (Machine.machine_perform_of_pressedKey? pressed).trans
    (Machine.machine_pressKey_of_awaiting still key)
  change resumed = _ at resumed_eq
  refine ⟨resumed_eq, ?_, ?_, ?_⟩
  · rw [resumed_eq]
    simp [State.v]
  · rw [resumed_eq]
    simp
  · rw [Machine.notices_step_of_free (by rw [resumed_eq]), resumed_eq, Machine.fetchNotice,
      idled.state_eq]
    rfl

/-- A machine that is about to wait for a key, with time on both timers. -/
def beforeWait : Machine :=
  ((Machine.start {} 0).run
    [.loadProgram 0x200 #[0xF3, 0x0A], .setDelay 2, .setSound 1]).machine

theorem word_beforeWait : beforeWait.state.word = 0xF30A := by
  have loaded : beforeWait.state.memory = Memory.initial.load 0x200 #[0xF3, 0x0A] := rfl
  have here : beforeWait.state.registers.counter.toNat = 0x200 := rfl
  rw [State.word_of_loaded 0 loaded here (by decide) (by decide)]
  decide

/-- Every kind of action that leaves a wait alone. -/
def idleActions : List Action :=
  [.step, .runFrame, .tickDelay, .tickSound, .tickTimers, .release 7, .labelUp 'Q',
    .labelDown '5', .press 16, .takeFrame]

theorem idles_idleActions : ∀ action ∈ idleActions, action.idles = true := by
  decide

theorem awaitKey_beforeWait :
    beforeWait.state.awaiting = none ∧ Word.family beforeWait.state.word = 0xF ∧
      Word.byte beforeWait.state.word = 0x0A ∧ Word.x beforeWait.state.word = Digit.ofNat 3 := by
  rw [word_beforeWait]
  exact ⟨rfl, by decide⟩

theorem awaiting_step_beforeWait :
    beforeWait.step.machine.state.awaiting = some (Digit.ofNat 3) := by
  obtain ⟨free, family, byte, x⟩ := awaitKey_beforeWait
  rw [(Machine.step_of_awaitKey free family byte).2, x]

/-- A wait for V3 outlasts every kind of idle action and ends with key 7. -/
theorem key_ends_wait :
    beforeWait.step.machine.state.awaiting = some (Digit.ofNat 3) ∧
      (∀ action ∈ idleActions, action.idles = true) ∧
      (let reply := beforeWait.step.machine.run idleActions
      reply.value[1]? = some (.outcome (.awaitingKey (Digit.ofNat 3))) ∧
        reply.machine.state.awaiting = some (Digit.ofNat 3) ∧
        (reply.machine.perform (.press 7)).machine.state.v (Digit.ofNat 3) = 7) := by
  refine ⟨awaiting_step_beforeWait, idles_idleActions, ?_⟩
  have awaits := awaiting_step_beforeWait
  -- Only the wait matters from here on, not the memory of the machine that waits.
  generalize beforeWait.step.machine = machine at awaits ⊢
  obtain ⟨answers, ⟨still, _⟩, resumes⟩ :=
    first_key_ends_wait machine (Digit.ofNat 3) idleActions awaits idles_idleActions
  have pressed : (Action.press 7).pressedKey? = some (Digit.ofNat 7) := by decide
  have seven : Digit.toByte (Digit.ofNat 7) = 7 := by decide
  have resumed := (resumes (.press 7) (Digit.ofNat 7) pressed).2.1
  exact ⟨answers 1 (by decide) (by decide), still, resumed.trans seven⟩

end ChipEight
