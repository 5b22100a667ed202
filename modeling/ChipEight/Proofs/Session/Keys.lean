import ChipEight.Proofs.Machine.Loading
import ChipEight.Proofs.Session.Turns

/-!
# The keyboard and the keypad

Sixteen positions of the keyboard are the keypad, and one more makes a session go back. A session
learns of them by events only, and it forgets nothing: whatever its machine runs, waits for or takes
back, a key of the keypad is down exactly if the last event about its position says so, and a turn
goes back exactly if the last event about the escape key says so.
-/

namespace ChipEight

/-! ## The positions of the keypad -/

namespace Keyboard

/-- The position of a keypad key. -/
def ScanCode.ofKey (key : Key) : ScanCode :=
  [27, 30, 31, 32, 20, 26, 8, 4, 22, 7, 29, 6, 33, 21, 9, 25].getD key.val 0

/-- The two tables together lead from one position to each key. -/
theorem keyAt?_eq_some_iff {code : ScanCode} {key : Key} :
    keyAt? code = some key ↔ code = ScanCode.ofKey key := by
  constructor
  · unfold keyAt? ScanCode.label?
    split <;> intro found <;> cases found <;> rfl
  · rintro rfl
    revert key
    decide

theorem existsUnique_keyAt? (key : Key) : ∃! code, keyAt? code = some key := by
  simp only [keyAt?_eq_some_iff]
  exact ⟨ScanCode.ofKey key, rfl, fun _ same => same⟩

end Keyboard

namespace Machine

variable (machine : Machine)

theorem keypad_labelDown (label : Char) :
    (machine.labelDown label).machine.keypad =
      ((Keyboard.keyOfLabel? label).map (machine.keypad.set · true)).getD machine.keypad := by
  unfold labelDown pressKey
  cases Keyboard.keyOfLabel? label with
  | none => rfl
  | some key => cases machine.state.awaiting <;> rfl

theorem keypad_labelUp (label : Char) :
    (machine.labelUp label).machine.keypad =
      ((Keyboard.keyOfLabel? label).map (machine.keypad.set · false)).getD machine.keypad := by
  unfold labelUp
  cases Keyboard.keyOfLabel? label <;> rfl

theorem keypad_loadRom (source : RomSource) :
    (machine.loadRom source).machine.keypad = machine.keypad := by
  cases source with
  | broken => rfl
  | complete bytes =>
      by_cases fits : bytes.size ≤ Memory.size - machine.settings.programStart.toNat
      · rw [loadRom_of_room fits]
      · rw [loadRom_of_tooLarge (Nat.lt_of_not_le fits)]

end Machine

namespace Session

open Keyboard (ScanCode keyAt?)

/-! ## What events tell about a position -/

/-- Whether an event is the key at a position going down or coming up. -/
def Event.moves (code : ScanCode) : Event → Bool
  | .keyDown pressed repeated => pressed == some code && !repeated
  | .keyUp released => released == some code
  | .other | .quit => false

/-- The event of a key going down or coming up. -/
def Event.stroke (code : ScanCode) : Bool → Event
  | true => .keyDown (some code) false
  | false => .keyUp (some code)

/-- The key at a position has gone down and has not come up since. -/
def Held (code : ScanCode) (events : List Event) : Prop :=
  (events.filter (Event.moves code)).getLast? = some (.keyDown (some code) false)

section

variable {code other : ScanCode} {event : Event} {events : List Event}

theorem moves_stroke (down : Bool) : (Event.stroke other down).moves code = (other == code) := by
  cases down <;> simp [Event.stroke, Event.moves]

theorem not_held_nil : ¬Held code [] := by
  simp [Held]

theorem held_concat_of_still (still : event.moves code = false) :
    Held code (events ++ [event]) ↔ Held code events := by
  simp [Held, still]

theorem held_concat_of_moves (moved : event.moves code = true) :
    Held code (events ++ [event]) ↔ event = .keyDown (some code) false := by
  simp [Held, moved]

theorem held_stroke (down : Bool) :
    Held code (events ++ [.stroke other down]) ↔
      if other = code then down = true else Held code events := by
  have moves : (Event.stroke other down).moves code = (other == code) := moves_stroke down
  by_cases same : other = code
  · subst same
    rw [beq_self_eq_true] at moves
    rw [if_pos rfl, held_concat_of_moves moves]
    cases down <;> simp [Event.stroke]
  · rw [beq_eq_false_iff_ne.mpr same] at moves
    rw [if_neg same, held_concat_of_still moves]

end

/-! ## Sessions that reflect the keyboard -/

namespace Loop

theorem keypad_key (loop : Loop) (code : ScanCode) (down : Bool) :
    (loop.key code down).1.machine.keypad =
      ((keyAt? code).map (loop.machine.keypad.set · down)).getD loop.machine.keypad := by
  unfold key keyAt?
  cases ScanCode.label? code with
  | some label =>
      cases down with
      | true => exact loop.machine.keypad_labelDown label
      | false => exact loop.machine.keypad_labelUp label
  | none =>
      dsimp only
      split
      · rfl
      · split <;> rfl

theorem holds_key (loop : Loop) {code other : ScanCode} {key : Key} (down : Bool)
    (reached : keyAt? other = some key) :
    (loop.key code down).1.machine.keypad.holds key =
      if code = other then down else loop.machine.keypad.holds key := by
  rw [keypad_key]
  by_cases same : code = other
  · simp [same, reached]
  · cases found : keyAt? code with
    | none => simp [same]
    | some moved =>
        have different : key ≠ moved := by
          rintro rfl
          rw [Keyboard.keyAt?_eq_some_iff] at found reached
          exact same (found.trans reached.symm)
        simp [same, different]

theorem rewinding_key (loop : Loop) (code : ScanCode) (down : Bool) :
    (loop.key code down).1.rewinding = if code = ScanCode.escape then down else loop.rewinding := by
  unfold key
  cases labelled : ScanCode.label? code with
  | some label =>
      have other : code ≠ ScanCode.escape := by
        rintro rfl
        cases labelled
      exact (if_neg other).symm
  | none =>
      by_cases space : code = ScanCode.space
      · subst space
        rfl
      · by_cases escape : code = ScanCode.escape
        · subst escape
          rfl
        · simp only [space, escape, if_false]

/-- A session whose keypad, and whose mind to go back, are those of a keyboard that has sent some
events. -/
structure Reflects (loop : Loop) (events : List Event) : Prop where
  holds_iff : ∀ {code key}, keyAt? code = some key →
    (loop.machine.keypad.holds key = true ↔ Held code events)
  rewinding_iff : loop.rewinding = true ↔ Held ScanCode.escape events

theorem reflects_start {machine : Machine} (released : machine.keypad = Keypad.released) :
    (start machine).Reflects [] where
  holds_iff {code key} _ := by
    have up : (start machine).machine.keypad.holds key = false := by
      change machine.keypad.holds key = false
      rw [released]
      simp [Keypad.holds, Keypad.released]
    simp [up, not_held_nil]
  rewinding_iff := by simp [start, not_held_nil]

variable {loop : Loop} {earlier : List Event}

theorem Reflects.of_eq {after : Loop} (reflects : loop.Reflects earlier)
    (keypad : after.machine.keypad = loop.machine.keypad)
    (rewinding : after.rewinding = loop.rewinding) : after.Reflects earlier where
  holds_iff reached := by
    rw [keypad]
    exact reflects.holds_iff reached
  rewinding_iff := by
    rw [rewinding]
    exact reflects.rewinding_iff

/-- An event that moves no key tells nothing. -/
theorem Reflects.of_still (reflects : loop.Reflects earlier) {event : Event}
    (still : ∀ code, event.moves code = false) : loop.Reflects (earlier ++ [event]) where
  holds_iff {code _} reached := by
    rw [held_concat_of_still (still code)]
    exact reflects.holds_iff reached
  rewinding_iff := by
    rw [held_concat_of_still (still _)]
    exact reflects.rewinding_iff

theorem Reflects.key (reflects : loop.Reflects earlier) (code : ScanCode) (down : Bool) :
    (loop.key code down).1.Reflects (earlier ++ [.stroke code down]) where
  holds_iff reached := by
    rw [loop.holds_key down reached, held_stroke, ← reflects.holds_iff reached]
    split <;> rfl
  rewinding_iff := by
    rw [rewinding_key, held_stroke, ← reflects.rewinding_iff]
    split <;> rfl

theorem Reflects.handle (reflects : loop.Reflects earlier) (event : Event) :
    (loop.handle event).1.Reflects (earlier ++ [event]) := by
  cases event with
  | quit | other => exact reflects.of_still fun _ => rfl
  | keyDown code repeated =>
      cases code with
      | none => exact reflects.of_still fun _ => rfl
      | some pressed =>
          cases repeated with
          | true => exact reflects.of_still fun _ => Bool.and_false _
          | false => exact reflects.key pressed true
  | keyUp code =>
      cases code with
      | none => exact reflects.of_still fun _ => rfl
      | some released => exact reflects.key released false

theorem Reflects.poll (reflects : loop.Reflects earlier) {events : List Event}
    (goesOn : (loop.poll events).1 = false) :
    (loop.poll events).2.1.Reflects (earlier ++ events) := by
  induction events generalizing loop earlier with
  | nil =>
      rw [List.append_nil]
      exact reflects
  | cons event later ih =>
      have notQuit : event ≠ .quit := by
        rintro rfl
        exact Bool.noConfusion goesOn
      obtain ⟨ended, polled⟩ := loop.poll_cons_of_ne_quit later notQuit
      rw [ended] at goesOn
      rw [polled, List.append_cons]
      exact ih (reflects.handle event) goesOn

theorem Reflects.takeFrame (reflects : loop.Reflects earlier) :
    loop.takeFrame.Reflects earlier :=
  reflects.of_eq loop.machine.keypad_takeFrame rfl

/-- Neither running an instruction nor going back moves a key. -/
theorem keypad_update (loop : Loop) :
    loop.update.2.1.machine.keypad = loop.machine.keypad := by
  unfold update backward forward
  split
  · exact loop.machine.keypad_rewind
  · dsimp only
    split <;> exact loop.machine.keypad_step

theorem rewinding_update (loop : Loop) : loop.update.2.1.rewinding = loop.rewinding := by
  unfold update
  split <;> rfl

theorem rewound_update_iff (loop : Loop) :
    (∃ done, loop.update.1 = .rewound done) ↔ loop.rewinding = true := by
  unfold update backward forward
  cases loop.rewinding <;> simp

theorem Reflects.turn (reflects : loop.Reflects earlier) {events : List Event}
    (updated : (loop.turn events).update ≠ none) :
    (loop.turn events).after.Reflects (earlier ++ events) := by
  have goesOn := loop.goesOn_of_updated updated
  have polled := reflects.takeFrame.poll goesOn
  rw [(loop.turn_of_goesOn goesOn).2]
  exact polled.of_eq (keypad_update _) (rewinding_update _)

theorem Reflects.afterTurns (reflects : loop.Reflects earlier) {script : List (List Event)}
    {number : Nat} (within : number < (loop.turns script).length) :
    (loop.afterTurns (script.take number)).Reflects
      (earlier ++ (script.take number).flatten) := by
  induction script generalizing loop earlier number with
  | nil => exact absurd within (Nat.not_lt_zero number)
  | cons events later ih =>
      cases number with
      | zero =>
          rw [List.take_zero, List.flatten_nil, List.append_nil]
          exact reflects
      | succ number =>
          -- Only the last turn can end the session, and there is another one behind this.
          have updated : (loop.turn events).update ≠ none := by
            intro ended
            rw [loop.turns_cons_of_ended events later ended] at within
            exact Nat.not_lt_zero number (Nat.lt_of_succ_lt_succ within)
          rw [loop.turns_cons_of_updated events later updated, List.length_cons] at within
          rw [List.take_succ_cons, List.flatten_cons, ← List.append_assoc]
          exact ih (reflects.turn updated) (Nat.lt_of_succ_lt_succ within)

end Loop

/-- Whenever a session goes forward or back, after the events of that turn, a key of the keypad is
down exactly if the last event that moved the key at its position was its going down, and the
session goes back exactly if that is so for the escape key. The keypad stays as it is until the
next events. Each key has one position. -/
theorem session_reflects_keyboard (settings : Settings) (entropy : Random.Entropy)
    (source : RomSource) (script : List (List Event)) :
    let loop := Loop.start ((Machine.start settings entropy).loadRom source).machine
    let turns := loop.turns script
    (∀ (number : Nat) (within : number < turns.length),
      let before := loop.afterTurns (script.take number)
      let events := script.getD number []
      let polled := (before.takeFrame.poll events).2.1
      let soFar := (script.take (number + 1)).flatten
      turns[number] = before.turn events ∧
      ∀ update, turns[number].update = some update →
        update = polled.update.1 ∧ turns[number].after = polled.update.2.1 ∧
        (∀ code key, keyAt? code = some key →
          (polled.machine.keypad.holds key = true ↔ Held code soFar)) ∧
        turns[number].after.machine.keypad = polled.machine.keypad ∧
        ((∃ done, update = .rewound done) ↔ Held ScanCode.escape soFar)) ∧
    ∀ key, ∃! code, keyAt? code = some key := by
  intro loop turns
  refine ⟨?_, Keyboard.existsUnique_keyAt?⟩
  intro number within before events polled soFar
  have taken : turns[number] = before.turn events := loop.getElem_turns script number within
  refine ⟨taken, ?_⟩
  intro update updated
  rw [taken] at updated ⊢
  have goesOn : (before.takeFrame.poll events).1 = false :=
    before.goesOn_of_updated (by simp [updated])
  obtain ⟨update_eq, after_eq⟩ := before.turn_of_goesOn goesOn
  have same : update = polled.update.1 := Option.some.inj (updated.symm.trans update_eq)
  have released : loop.machine.keypad = Keypad.released := Machine.keypad_loadRom _ source
  have reflectsBefore : before.Reflects ([] ++ (script.take number).flatten) :=
    (Loop.reflects_start released).afterTurns within
  have soFar_eq : [] ++ (script.take number).flatten ++ events = soFar := by
    simp only [soFar, events, List.take_add_one, List.flatten_append, List.getD_eq_getElem?_getD]
    cases script[number]? <;> simp
  have reflects : polled.Reflects soFar := by
    rw [← soFar_eq]
    exact reflectsBefore.takeFrame.poll goesOn
  refine ⟨same, after_eq, fun _ _ => reflects.holds_iff, ?_, ?_⟩
  · rw [after_eq]
    exact polled.keypad_update
  · rw [same, polled.rewound_update_iff]
    exact reflects.rewinding_iff

end Session

end ChipEight
