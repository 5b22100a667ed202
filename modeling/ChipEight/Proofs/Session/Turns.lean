import ChipEight.Proofs.Machine.Picture
import ChipEight.Session.Loop

/-!
# Turns of a session

A turn takes the picture, handles events, and brings the machine forward or back unless an
event ended the session. This file describes one turn by the session that its events leave
behind, shows what events cannot change, and numbers the turns of a script.
-/

namespace ChipEight.Session.Loop

/-- The session in a turn that has taken the picture and looks for events. -/
def takeFrame (loop : Loop) : Loop :=
  { loop with machine := loop.machine.takeFrame.machine }

/-- The sessions that look for an event in a turn: before each event that is met, and once
more when there is none left. -/
def pollings (loop : Loop) : List Event → List Loop
  | [] => [loop]
  | .quit :: _ => [loop]
  | event :: later => loop :: (loop.handle event).1.pollings later

def afterTurns (loop : Loop) (script : List (List Event)) : Loop :=
  script.foldl (fun loop events => (loop.turn events).after) loop

theorem afterTurns_append (loop : Loop) (first second : List (List Event)) :
    loop.afterTurns (first ++ second) = (loop.afterTurns first).afterTurns second :=
  List.foldl_append

/-- A turn by what its events leave behind. -/
theorem turn_eq (loop : Loop) (events : List Event) :
    loop.turn events =
      let result := loop.takeFrame.poll events
      let frame := loop.machine.takeFrame
      if result.1 then ⟨frame.value, none, result.2.1, frame.notices ++ result.2.2⟩
      else ⟨frame.value, some result.2.1.update.1, result.2.1.update.2.1,
        frame.notices ++ result.2.2 ++ result.2.1.update.2.2⟩ :=
  rfl

theorem turn_of_goesOn (loop : Loop) {events : List Event}
    (goesOn : (loop.takeFrame.poll events).1 = false) :
    let polled := (loop.takeFrame.poll events).2.1
    (loop.turn events).update = some polled.update.1 ∧
      (loop.turn events).after = polled.update.2.1 := by
  simp only [turn_eq, goesOn, Bool.false_eq_true, if_false, and_self]

theorem goesOn_of_updated (loop : Loop) {events : List Event}
    (updated : (loop.turn events).update ≠ none) : (loop.takeFrame.poll events).1 = false := by
  by_contra ended
  rw [turn_eq] at updated
  simp only [Bool.not_eq_false] at ended
  simp only [ended, if_true, ne_eq, not_true_eq_false] at updated

/-- What events leave alone. -/
structure Polled (before after : Loop) : Prop where
  edited : before.machine.Edited after.machine
  cycles_eq : after.cycles = before.cycles

theorem Polled.refl (loop : Loop) : Polled loop loop :=
  ⟨.refl loop.machine, rfl⟩

theorem Polled.trans {first second third : Loop} (earlier : first.Polled second)
    (later : second.Polled third) : first.Polled third :=
  ⟨earlier.edited.trans later.edited, later.cycles_eq.trans earlier.cycles_eq⟩

theorem polled_key (loop : Loop) (code : Keyboard.ScanCode) (down : Bool) :
    Polled loop (loop.key code down).1 := by
  unfold key
  cases Keyboard.ScanCode.label? code with
  | some label =>
      refine ⟨?_, rfl⟩
      cases down
      · exact loop.machine.edited_labelUp label
      · exact loop.machine.edited_labelDown label
  | none =>
      by_cases space : code = Keyboard.ScanCode.space
      · simp only [space, if_true]
        exact ⟨.refl _, rfl⟩
      · by_cases escape : code = Keyboard.ScanCode.escape
        · simp only [escape, if_true]
          exact ⟨.refl _, rfl⟩
        · simp only [space, escape, if_false]
          exact .refl loop

theorem polled_handle (loop : Loop) (event : Event) : Polled loop (loop.handle event).1 := by
  unfold handle
  split
  · exact loop.polled_key ..
  · exact loop.polled_key ..
  all_goals exact .refl loop

theorem poll_cons_of_ne_quit (loop : Loop) {event : Event} (later : List Event)
    (goesOn : event ≠ .quit) :
    (loop.poll (event :: later)).1 = ((loop.handle event).1.poll later).1 ∧
      (loop.poll (event :: later)).2.1 = ((loop.handle event).1.poll later).2.1 := by
  cases event with
  | quit => exact absurd rfl goesOn
  | _ => exact ⟨rfl, rfl⟩

theorem pollings_cons_of_ne_quit (loop : Loop) {event : Event} (later : List Event)
    (goesOn : event ≠ .quit) :
    loop.pollings (event :: later) = loop :: (loop.handle event).1.pollings later := by
  cases event with
  | quit => exact absurd rfl goesOn
  | _ => rfl

theorem polled_poll (loop : Loop) (events : List Event) :
    Polled loop (loop.poll events).2.1 := by
  induction events generalizing loop with
  | nil => exact .refl loop
  | cons event later ih =>
      by_cases quits : event = .quit
      · subst quits
        exact ⟨loop.machine.edited_cancelWait, rfl⟩
      · rw [(loop.poll_cons_of_ne_quit later quits).2]
        exact (loop.polled_handle event).trans (ih _)

theorem polled_of_mem_pollings {loop session : Loop} {events : List Event}
    (member : session ∈ loop.pollings events) : Polled loop session := by
  induction events generalizing loop with
  | nil =>
      rw [List.mem_singleton.mp member]
      exact .refl loop
  | cons event later ih =>
      by_cases quits : event = .quit
      · subst quits
        rw [List.mem_singleton.mp member]
        exact .refl loop
      · rw [loop.pollings_cons_of_ne_quit later quits, List.mem_cons] at member
        rcases member with rfl | member
        · exact .refl session
        · exact (loop.polled_handle event).trans (ih member)

theorem edited_forward (loop : Loop) :
    loop.machine.step.machine.Edited loop.forward.2.1.machine := by
  unfold forward
  dsimp only
  split
  · exact Machine.edited_tickTimers _
  · exact .refl _

/-- The three ways in which a turn goes. -/
inductive Turned (loop : Loop) : Turn → Prop where
  | ends {polled : Loop} (notices : Array Notice) (events : Polled loop.takeFrame polled) :
      Turned loop ⟨loop.machine.takeFrame.value, none, polled, notices⟩
  | forward {polled : Loop} (notices : Array Notice) (events : Polled loop.takeFrame polled)
      (held : polled.rewinding = false) :
      Turned loop
        ⟨loop.machine.takeFrame.value, some polled.forward.1, polled.forward.2.1, notices⟩
  | backward {polled : Loop} (notices : Array Notice) (events : Polled loop.takeFrame polled)
      (held : polled.rewinding = true) :
      Turned loop
        ⟨loop.machine.takeFrame.value, some polled.backward.1, polled.backward.2.1, notices⟩

theorem turned_turn (loop : Loop) (events : List Event) : Turned loop (loop.turn events) := by
  have polled := loop.takeFrame.polled_poll events
  rw [turn_eq]
  generalize loop.takeFrame.poll events = result at polled ⊢
  obtain ⟨ended, session, notices⟩ := result
  cases ended with
  | true => exact .ends _ polled
  | false =>
      cases held : session.rewinding with
      | false =>
          simp only [update, held]
          exact .forward _ polled held
      | true =>
          simp only [update, held]
          exact .backward _ polled held

theorem turns_cons_of_ended (loop : Loop) (events : List Event) (later : List (List Event))
    (ended : (loop.turn events).update = none) :
    loop.turns (events :: later) = [loop.turn events] := by
  simp only [turns, ended]

theorem turns_cons_of_updated (loop : Loop) (events : List Event) (later : List (List Event))
    (updated : (loop.turn events).update ≠ none) :
    loop.turns (events :: later) =
      loop.turn events :: (loop.turn events).after.turns later := by
  obtain ⟨update, update_eq⟩ := Option.ne_none_iff_exists'.mp updated
  simp only [turns, update_eq]

/-- Each turn of a script is taken by the session that the turns before it left behind. -/
theorem getElem_turns (loop : Loop) (script : List (List Event)) (number : Nat)
    (within : number < (loop.turns script).length) :
    (loop.turns script)[number] =
      (loop.afterTurns (script.take number)).turn (script.getD number []) := by
  induction script generalizing loop number with
  | nil => exact absurd within (Nat.not_lt_zero number)
  | cons events later ih =>
      by_cases ended : (loop.turn events).update = none
      · simp only [loop.turns_cons_of_ended events later ended, List.length_singleton,
          Nat.lt_one_iff] at within ⊢
        subst within
        rfl
      · simp only [loop.turns_cons_of_updated events later ended, List.length_cons] at within ⊢
        cases number with
        | zero => rfl
        | succ number =>
            rw [List.getElem_cons_succ, ih _ number (Nat.lt_of_succ_lt_succ within)]
            rfl

theorem length_turns_le (loop : Loop) (script : List (List Event)) :
    (loop.turns script).length ≤ script.length := by
  induction script generalizing loop with
  | nil => exact Nat.le_refl 0
  | cons events later ih =>
      by_cases ended : (loop.turn events).update = none
      · rw [loop.turns_cons_of_ended events later ended]
        exact Nat.succ_le_succ (Nat.zero_le _)
      · rw [loop.turns_cons_of_updated events later ended]
        exact Nat.succ_le_succ (ih _)

theorem afterTurns_take_succ (loop : Loop) (script : List (List Event)) (number : Nat)
    (within : number < (loop.turns script).length) :
    loop.afterTurns (script.take (number + 1)) = (loop.turns script)[number].after := by
  have inScript : number < script.length :=
    Nat.lt_of_lt_of_le within (loop.length_turns_le script)
  rw [getElem_turns, List.getD_eq_getElem?_getD, List.getElem?_eq_getElem inScript,
    List.take_succ_eq_append_getElem inScript]
  exact loop.afterTurns_append ..

end ChipEight.Session.Loop
