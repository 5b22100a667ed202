import ChipEight.Proofs.Machine.Redraw
import ChipEight.Proofs.Machine.Stopping
import ChipEight.Proofs.Session.Cadence

/-!
# Turns and frames

A session takes one step in a turn and lets the timers tick in every so many turns. A frame
takes as many steps at once and then lets the timers tick. If the keys come at the beginning of
what a frame would be, the two drive a machine alike.

They are not quite the same: a turn takes the picture, and a frame does not. A frame stops when
a wait begins, and a session goes on taking steps that do nothing. So what is carried from turn
to turn is that the two machines differ in the marks of their states at most.
-/

namespace ChipEight.Session

/-- Whether an event ends a session or belongs to the key that makes it go back. -/
def Event.interrupts : Event → Bool
  | .quit => true
  | .keyDown code _ | .keyUp code => code == some Keyboard.ScanCode.escape
  | .other => false

/-- What an event asks of the machine. A repetition asks for nothing, and neither does a key that
is not on the keypad. -/
def Event.action? : Event → Option Action
  | .keyDown (some code) false => (Keyboard.ScanCode.label? code).map .labelDown
  | .keyUp (some code) => (Keyboard.ScanCode.label? code).map .labelUp
  | .keyDown _ _ | .keyUp none | .other | .quit => none

theorem Event.ne_takeFrame_of_action? {event : Event} {action : Action}
    (asks : event.action? = some action) :
    action ≠ .takeFrame := by
  rintro rfl
  revert asks
  unfold action?
  split <;> simp

/-- What is asked of a machine that gets the keys of some events and then a whole frame. -/
def frameActions (events : List Event) : List Action :=
  events.filterMap Event.action? ++ [.runFrame]

/-- What is asked in so many frames, if each of them gets the events of its first turn. -/
def actionsOfFrames (period : Nat) (script : List (List Event)) (count : Nat) : List Action :=
  (List.range count).flatMap fun number => frameActions (script.getD (number * period) [])

theorem actionsOfFrames_succ (period : Nat) (script : List (List Event)) (count : Nat) :
    actionsOfFrames period script (count + 1) =
      actionsOfFrames period script count ++
        frameActions (script.getD (count * period) []) := by
  simp [actionsOfFrames, List.range_succ]

namespace Loop

variable {loop : Loop} {event : Event} {events : List Event}

/-! ## Events that do not interrupt -/

theorem key_of_ne_escape (loop : Loop) {code : Keyboard.ScanCode} (down : Bool)
    (other : code ≠ Keyboard.ScanCode.escape) :
    let asks := (Keyboard.ScanCode.label? code).map (if down then .labelDown else .labelUp)
    (loop.key code down).1.rewinding = loop.rewinding ∧
      (loop.key code down).1.machine = (loop.machine.run asks.toList).machine := by
  unfold key
  cases Keyboard.ScanCode.label? code with
  | some label => cases down <;> exact ⟨rfl, rfl⟩
  | none =>
      by_cases space : code = Keyboard.ScanCode.space
      · simp only [space, if_true, true_and]
        rfl
      · simp only [space, other, if_false, true_and]
        rfl

theorem handle_of_not_interrupts (loop : Loop) (calm : event.interrupts = false) :
    (loop.handle event).1.rewinding = loop.rewinding ∧
      (loop.handle event).1.machine = (loop.machine.run event.action?.toList).machine := by
  cases event with
  | quit | other => exact ⟨rfl, rfl⟩
  | keyDown code repeated =>
      cases code with
      | none => exact ⟨rfl, rfl⟩
      | some code =>
          have other : code ≠ Keyboard.ScanCode.escape := by simpa [Event.interrupts] using calm
          cases repeated with
          | true => exact ⟨rfl, rfl⟩
          | false => exact loop.key_of_ne_escape true other
  | keyUp code =>
      cases code with
      | none => exact ⟨rfl, rfl⟩
      | some code =>
          have other : code ≠ Keyboard.ScanCode.escape := by simpa [Event.interrupts] using calm
          exact loop.key_of_ne_escape false other

theorem poll_of_not_interrupts (loop : Loop)
    (calm : ∀ event ∈ events, event.interrupts = false) :
    (loop.poll events).1 = false ∧ (loop.poll events).2.1.rewinding = loop.rewinding ∧
      (loop.poll events).2.1.machine =
        (loop.machine.run (events.filterMap Event.action?)).machine := by
  induction events generalizing loop with
  | nil => exact ⟨rfl, rfl, rfl⟩
  | cons event later ih =>
      rw [List.forall_mem_cons] at calm
      have goesOn : event ≠ .quit := by
        rintro rfl
        exact Bool.noConfusion calm.1
      obtain ⟨ended, polled⟩ := loop.poll_cons_of_ne_quit later goesOn
      obtain ⟨rewinding, machine⟩ := loop.handle_of_not_interrupts calm.1
      obtain ⟨unended, same, after⟩ := ih (loop.handle event).1 calm.2
      rw [ended, polled]
      refine ⟨unended, same.trans rewinding, after.trans ?_⟩
      rw [machine, ← Machine.machine_run_append]
      cases asks : event.action? with
      | none => rw [List.filterMap_cons_none asks]; rfl
      | some action => rw [List.filterMap_cons_some asks]; rfl

/-- A session that nothing interrupts takes all its turns. -/
theorem length_turns_of_not_interrupts (loop : Loop) {script : List (List Event)}
    (calm : ∀ events ∈ script, ∀ event ∈ events, event.interrupts = false) :
    (loop.turns script).length = script.length := by
  induction script generalizing loop with
  | nil => rfl
  | cons events later ih =>
      rw [List.forall_mem_cons] at calm
      have goesOn := (loop.takeFrame.poll_of_not_interrupts calm.1).1
      have updated : (loop.turn events).update ≠ none := by
        rw [(loop.turn_of_goesOn goesOn).1]
        exact Option.some_ne_none _
      rw [loop.turns_cons_of_updated events later updated, List.length_cons, List.length_cons,
        ih _ calm.2]

/-! ## A machine that follows a session -/

/-- A machine that differs from that of a session in the marks of its states at most, when the
session is going forward and has been brought forward so many times. -/
structure Follows (loop : Loop) (machine : Machine) (period taken : Nat) : Prop where
  alike : loop.machine.unmarked = machine.unmarked
  onward : loop.rewinding = false
  counts : loop.Counts period taken

theorem follows_start (machine : Machine) :
    (start machine).Follows machine machine.settings.cyclesPerTick.toNat 0 :=
  ⟨rfl, rfl, counts_start machine⟩

variable {machine : Machine} {period taken : Nat}

theorem Follows.period_eq (follows : loop.Follows machine period taken) :
    machine.settings.cyclesPerTick.toNat = period := by
  rw [← (Machine.unmarked_eq_iff.mp follows.alike).1]
  exact follows.counts.period_eq

theorem Follows.period_pos (follows : loop.Follows machine period taken) : 0 < period := by
  rw [← follows.period_eq]
  exact machine.settings.one_le_cyclesPerTick

/-- Keys reach both machines. -/
theorem Follows.poll (follows : loop.Follows machine period taken)
    (calm : ∀ event ∈ events, event.interrupts = false) :
    (loop.takeFrame.poll events).2.1.Follows
      (machine.run (events.filterMap Event.action?)).machine period taken := by
  obtain ⟨-, same, after⟩ := loop.takeFrame.poll_of_not_interrupts calm
  refine ⟨?_, same.trans follows.onward, follows.counts.polled (loop.takeFrame.polled_poll events)⟩
  have alike : loop.takeFrame.machine.unmarked = machine.unmarked :=
    loop.machine.unmarked_takeFrame.trans follows.alike
  rw [after]
  refine (Machine.erased_eq_iff.mp (Machine.erased_run ?_ alike)).2.1
  intro action member
  obtain ⟨event, -, asks⟩ := List.mem_filterMap.mp member
  exact Machine.perform_overlooks_marks (Event.ne_takeFrame_of_action? asks)

/-- The timers of both machines tick at the same time. -/
theorem Follows.forward (follows : loop.Follows machine period taken)
    (below : taken + 1 < UInt32.size) :
    loop.forward.2.1.Follows
      (if (taken + 1) % period = 0 then machine.step.machine.tickTimers else machine.step.machine)
      period (taken + 1) := by
  refine ⟨?_, follows.onward, follows.counts.forward⟩
  have stepped := (Machine.erased_eq_iff.mp (Machine.step_overlooks_marks.congr follows.alike)).2.1
  have ticks := follows.counts.ticks_forward
  rw [Nat.mod_eq_of_lt below] at ticks
  unfold Loop.forward at ticks ⊢
  simp only [Update.ticks] at ticks
  simp only [ticks, beq_iff_eq]
  split
  · exact Machine.unmarked_tickTimers_congr stepped
  · exact stepped

/-- A turn asks of the machine what its events ask, and a step. -/
theorem Follows.turn (follows : loop.Follows machine period taken)
    (calm : ∀ event ∈ events, event.interrupts = false) (below : taken + 1 < UInt32.size) :
    let pressed := (machine.run (events.filterMap Event.action?)).machine
    (loop.turn events).after.Follows
      (if (taken + 1) % period = 0 then pressed.step.machine.tickTimers else pressed.step.machine)
      period (taken + 1) := by
  intro pressed
  have polled := follows.poll calm
  obtain ⟨goesOn, -, -⟩ := loop.takeFrame.poll_of_not_interrupts calm
  rw [(loop.turn_of_goesOn goesOn).2, Loop.update, if_neg (by simp [polled.onward])]
  exact polled.forward below

/-- After the turn with the keys there are turns without events, up to the tick. -/
theorem Follows.turns_of_frame (follows : loop.Follows machine period taken)
    (calm : ∀ event ∈ events, event.interrupts = false) (divides : period ∣ taken) {count : Nat}
    (within : count < period) (below : taken + period < UInt32.size) :
    let pressed := (machine.run (events.filterMap Event.action?)).machine
    (loop.afterTurns (events :: List.replicate count [])).Follows
      (if count + 1 = period then (pressed.afterSteps (count + 1)).tickTimers
        else pressed.afterSteps (count + 1))
      period (taken + (count + 1)) := by
  intro pressed
  have ticks (turns : Nat) (positive : 0 < turns) (upTo : turns ≤ period) :
      (taken + turns) % period = 0 ↔ turns = period := by
    obtain ⟨frames, rfl⟩ := divides
    rw [Nat.mul_add_mod]
    constructor
    · intro whole
      exact Nat.le_antisymm upTo (Nat.le_of_dvd positive (Nat.dvd_of_mod_eq_zero whole))
    · intro last
      rw [last, Nat.mod_self]
  induction count with
  | zero =>
      have turned := follows.turn calm (by omega)
      simp only [ticks 1 Nat.one_pos within] at turned
      exact turned
  | succ count ih =>
      have before := ih (Nat.lt_of_succ_lt within)
      rw [if_neg (by omega)] at before
      have turned := before.turn (fun _ member => absurd member List.not_mem_nil) (by omega)
      simp only [Nat.add_assoc taken, ticks (count + 1 + 1) (Nat.succ_pos _) within] at turned
      rw [List.replicate_succ', ← List.cons_append, afterTurns_append, Machine.afterSteps_succ_last]
      exact turned

/-- So many turns as a tick takes, with the keys in the first of them, are a frame. -/
theorem Follows.frame (follows : loop.Follows machine period taken)
    (calm : ∀ event ∈ events, event.interrupts = false) (divides : period ∣ taken)
    (below : taken + period < UInt32.size) :
    (loop.afterTurns (events :: List.replicate (period - 1) [])).Follows
      (machine.run (frameActions events)).machine period (taken + period) := by
  have positive := follows.period_pos
  have whole : period - 1 + 1 = period := Nat.sub_add_cancel positive
  have turned := follows.turns_of_frame calm divides (Nat.sub_lt positive Nat.one_pos) below
  dsimp only at turned
  have pressedPeriod := (follows.poll calm).period_eq
  have frame := (Machine.runFrame_eq_steps (machine.run (events.filterMap Event.action?)).machine).1
  rw [pressedPeriod, Machine.machine_steps] at frame
  rw [whole, if_pos rfl, ← frame] at turned
  rw [frameActions, Machine.machine_run_append]
  exact turned

/-! ## A whole script -/

/-- The turns of a frame, if events come in its first turn only. -/
theorem take_succ_mul {script : List (List Event)} (positive : 0 < period)
    (paced : ∀ number, number % period ≠ 0 → script.getD number [] = []) {count : Nat}
    (within : (count + 1) * period ≤ script.length) :
    script.take ((count + 1) * period) =
      script.take (count * period) ++
        script.getD (count * period) [] :: List.replicate (period - 1) [] := by
  rw [Nat.succ_mul] at within ⊢
  have first : count * period < script.length := by omega
  have later : (script.drop (count * period + 1)).take (period - 1) =
      List.replicate (period - 1) [] := by
    rw [List.eq_replicate_iff, List.length_take, List.length_drop]
    refine ⟨by omega, ?_⟩
    intro events member
    obtain ⟨number, inFrame, rfl⟩ := List.getElem_of_mem member
    rw [List.length_take] at inFrame
    have inside : number + 1 < period := by omega
    rw [List.getElem_take, List.getElem_drop, List.getElem_eq_getD [], Nat.add_assoc,
      Nat.add_comm 1]
    apply paced
    rw [Nat.mul_add_mod_of_lt inside]
    exact Nat.succ_ne_zero number
  rw [List.take_add, List.drop_eq_getElem_cons first, ← List.getElem_eq_getD [], ← later,
    ← List.take_succ_cons, Nat.sub_add_cancel positive]

/-- A session whose events come in the first turns of frames is followed by the machine that gets
these frames. -/
theorem Follows.frames (follows : loop.Follows machine period 0) {script : List (List Event)}
    (calm : ∀ events ∈ script, ∀ event ∈ events, event.interrupts = false)
    (paced : ∀ number, number % period ≠ 0 → script.getD number [] = []) {count : Nat}
    (within : count * period ≤ script.length) (below : count * period < UInt32.size) :
    (loop.afterTurns (script.take (count * period))).Follows
      (machine.run (actionsOfFrames period script count)).machine period (count * period) := by
  induction count with
  | zero =>
      rw [Nat.zero_mul]
      exact follows
  | succ count ih =>
      have taken := take_succ_mul follows.period_pos paced within
      have positive := follows.period_pos
      rw [Nat.succ_mul] at within below taken ⊢
      have inScript : count * period < script.length := by omega
      have before := ih (Nat.le_of_lt inScript) (by omega)
      have events : script.getD (count * period) [] ∈ script := by
        rw [← List.getElem_eq_getD []]
        exact List.getElem_mem inScript
      rw [taken, afterTurns_append, actionsOfFrames_succ, Machine.machine_run_append]
      exact before.frame (calm _ events) (Nat.dvd_mul_left ..) below

end Loop

/-- A session that nothing interrupts and whose events come in the first turns of frames takes all
its turns. At the end of each frame its machine is that of whoever asks for the keys and the
frames, but for the marks of its states, as long as the counter of the turns has not gone round. -/
theorem turns_match_frames (machine : Machine) (script : List (List Event))
    (calm : ∀ events ∈ script, ∀ event ∈ events, event.interrupts = false)
    (paced : ∀ number, number % machine.settings.cyclesPerTick.toNat ≠ 0 →
      script.getD number [] = []) :
    let period := machine.settings.cyclesPerTick.toNat
    let loop := Loop.start machine
    let turns := loop.turns script
    turns.length = script.length ∧
    (∀ (number : Nat) (within : number < turns.length),
      turns[number].after = loop.afterTurns (script.take (number + 1))) ∧
    ∀ count, count * period ≤ script.length → count * period < UInt32.size →
      (loop.afterTurns (script.take (count * period))).machine.unmarked =
        (machine.run (actionsOfFrames period script count)).machine.unmarked := by
  intro period loop turns
  refine ⟨loop.length_turns_of_not_interrupts calm, ?_, ?_⟩
  · intro number within
    exact (loop.afterTurns_take_succ script number within).symm
  · intro count within below
    exact ((Loop.follows_start machine).frames calm paced within below).alike

/-- A machine that waits for a key and then stays where it is, with two steps in a frame. -/
def beforeFrames : Machine :=
  ((Machine.start { clockSpeed := 2, timerFrequency := 1 } 0).loadRom
    (.complete #[0xF3, 0x0A, 0x12, 0x02])).machine

/-- A key that is pressed, held and released before the third turn. -/
def keyInThirdTurn : List (List Event) :=
  [[], [], [.keyDown (some 4) false, .keyDown (some 4) true, .keyUp (some 4)], []]

/-- Four turns are two frames. The wait begins in the first turn, where the frame stops, and ends
in the third. -/
theorem keyInThirdTurn_matches_frames :
    let loop := Loop.start beforeFrames
    (∀ events ∈ keyInThirdTurn, ∀ event ∈ events, event.interrupts = false) ∧
      (∀ number, number % beforeFrames.settings.cyclesPerTick.toNat ≠ 0 →
        keyInThirdTurn.getD number [] = []) ∧
      (loop.turns keyInThirdTurn).length = 4 ∧
      (loop.afterTurns keyInThirdTurn).machine.unmarked =
        (beforeFrames.run
          [.runFrame, .labelDown 'A', .labelUp 'A', .runFrame]).machine.unmarked := by
  have period : beforeFrames.settings.cyclesPerTick.toNat = 2 := by
    rw [beforeFrames, (Machine.edited_loadRom _ _).settings_eq]
    decide
  have calm : ∀ events ∈ keyInThirdTurn, ∀ event ∈ events, event.interrupts = false := by decide
  have paced : ∀ number, number % beforeFrames.settings.cyclesPerTick.toNat ≠ 0 →
      keyInThirdTurn.getD number [] = [] := by
    rw [period]
    rintro (_ | _ | _ | _ | number) odd
    · exact absurd rfl odd
    · rfl
    · exact absurd rfl odd
    · rfl
    · rfl
  obtain ⟨turned, -, frames⟩ := turns_match_frames beforeFrames keyInThirdTurn calm paced
  have matching := frames 2
  rw [period] at matching
  exact ⟨calm, paced, turned, matching (by decide) (by decide)⟩

end ChipEight.Session
