import ChipEight.Proofs.Session.Turns

/-!
# What the window shows

A session renders the picture that its machine hands out, and nothing else. The machine hands
out its picture in the turn after one that changed it. So whenever the session looks for
events, the picture that was rendered last is the one on the screen of the machine.
-/

namespace ChipEight

namespace Session

/-- Whether the machine ran an instruction that changes the picture, or went back. -/
def Update.changesPicture : Update → Bool
  | .stepped outcome _ => outcome.draws
  | .rewound done => done

/-- The picture in a window that was dark before some turns rendered to it. -/
def shownAfter (turns : List Turn) : Screen :=
  turns.foldl (fun shown turn => turn.rendered.getD shown) Screen.dark

namespace Loop

variable {loop : Loop} {shown : Screen}

theorem redraw_polled {polled : Loop} (events : loop.takeFrame.Polled polled) :
    polled.machine.state.redraw = false :=
  events.edited.redraw_eq.trans loop.machine.redraw_takeFrame

theorem screen_polled (shows : loop.machine.Shows shown) {polled : Loop}
    (events : loop.takeFrame.Polled polled) :
    polled.machine.state.screen = loop.machine.takeFrame.value.getD shown :=
  events.edited.screen_eq.trans shows.takeFrame

theorem redraw_forward (taken : loop.machine.state.redraw = false) :
    loop.forward.2.1.machine.state.redraw = loop.forward.1.changesPicture := by
  rw [loop.edited_forward.redraw_eq, Machine.redraw_step, taken]
  exact Bool.false_or _

theorem redraw_backward (taken : loop.machine.state.redraw = false) :
    loop.backward.2.1.machine.state.redraw = loop.backward.1.changesPicture := by
  have asked := loop.machine.redraw_rewind
  rw [taken, Bool.false_or] at asked
  exact asked

theorem rendered_turn (loop : Loop) (events : List Event) :
    (loop.turn events).rendered = loop.machine.takeFrame.value := by
  have turned := loop.turned_turn events
  generalize loop.turn events = turn at turned ⊢
  cases turned <;> rfl

/-- A turn leaves a picture to be handed out exactly if its update changed the picture. -/
theorem redraw_turn (loop : Loop) (events : List Event) :
    (loop.turn events).after.machine.state.redraw =
      (loop.turn events).update.any Update.changesPicture := by
  have turned := loop.turned_turn events
  generalize loop.turn events = turn at turned ⊢
  cases turned with
  | ends _ polled => exact redraw_polled polled
  | forward _ polled => exact redraw_forward (redraw_polled polled)
  | backward _ polled => exact redraw_backward (redraw_polled polled)

theorem shows_turn (shows : loop.machine.Shows shown) (events : List Event) :
    (loop.turn events).after.machine.Shows ((loop.turn events).rendered.getD shown) := by
  rw [rendered_turn]
  have turned := loop.turned_turn events
  generalize loop.turn events = turn at turned ⊢
  have rendered {polled : Loop} (events : loop.takeFrame.Polled polled) :
      polled.machine.Shows (loop.machine.takeFrame.value.getD shown) :=
    fun _ => screen_polled shows events
  cases turned with
  | ends _ polled => exact rendered polled
  | @forward session _ polled => exact (rendered polled).step.edited session.edited_forward
  | backward _ polled => exact (rendered polled).rewind

theorem screen_of_ended (shows : loop.machine.Shows shown) {events : List Event}
    (ended : (loop.turn events).update = none) :
    (loop.turn events).after.machine.state.screen = (loop.turn events).rendered.getD shown := by
  apply shows_turn shows events
  rw [redraw_turn, ended]
  rfl

theorem shownAfter_take_succ {turns : List Turn} {number : Nat} (within : number < turns.length) :
    shownAfter (turns.take (number + 1)) =
      turns[number].rendered.getD (shownAfter (turns.take number)) := by
  rw [List.take_succ_eq_append_getElem within]
  exact List.foldl_append

theorem shows_afterTurns (shows : loop.machine.Shows Screen.dark) (script : List (List Event))
    {number : Nat} (within : number ≤ (loop.turns script).length) :
    (loop.afterTurns (script.take number)).machine.Shows
      (shownAfter ((loop.turns script).take number)) := by
  induction number with
  | zero => exact shows
  | succ number ih =>
      have before := ih (Nat.le_of_succ_le within)
      rw [loop.afterTurns_take_succ script number within, shownAfter_take_succ within,
        loop.getElem_turns script number within]
      exact shows_turn before _

end Loop

/-- Whenever a session looks for events, and when it ends, the picture rendered last is the one
on the screen of its machine. The first turn renders nothing, and each turn after it renders
that picture if the update before it changed it, and nothing otherwise. -/
theorem window_shows_screen (settings : Settings) (entropy : Random.Entropy) (source : RomSource)
    (script : List (List Event)) :
    let loop := Loop.start ((Machine.start settings entropy).loadRom source).machine
    let turns := loop.turns script
    (∀ (number : Nat) (within : number < turns.length),
      let before := loop.afterTurns (script.take number)
      let events := script.getD number []
      let shown := shownAfter (turns.take (number + 1))
      turns[number] = before.turn events ∧
        (∀ session ∈ before.takeFrame.pollings events, session.machine.state.screen = shown) ∧
        (turns[number].update = none → turns[number].after.machine.state.screen = shown)) ∧
    (∀ within : 0 < turns.length, turns[0].rendered = none) ∧
    ∀ (number : Nat) (within : number + 1 < turns.length),
      turns[number + 1].rendered =
        if turns[number].update.any Update.changesPicture then
          some turns[number].after.machine.state.screen
        else none := by
  intro loop turns
  have loaded := (Machine.start settings entropy).edited_loadRom source
  have shows : loop.machine.Shows Screen.dark :=
    (Machine.shows_start settings entropy).edited loaded
  refine ⟨?_, ?_, ?_⟩
  · intro number within before events shown
    have showsBefore : before.machine.Shows (shownAfter (turns.take number)) :=
      Loop.shows_afterTurns shows script (Nat.le_of_lt within)
    have taken : turns[number] = before.turn events := loop.getElem_turns script number within
    have shown_eq :
        shown = (before.turn events).rendered.getD (shownAfter (turns.take number)) := by
      rw [← taken]
      exact Loop.shownAfter_take_succ within
    refine ⟨taken, ?_, ?_⟩
    · intro session member
      rw [shown_eq, Loop.rendered_turn]
      exact Loop.screen_polled showsBefore (Loop.polled_of_mem_pollings member)
    · intro ended
      rw [taken] at ended ⊢
      rw [shown_eq]
      exact Loop.screen_of_ended showsBefore ended
  · intro within
    have first : turns[0] = loop.turn (script.getD 0 []) := loop.getElem_turns script 0 within
    have nothingOffered : loop.machine.state.redraw = false := loaded.redraw_eq
    rw [first, Loop.rendered_turn, Machine.value_takeFrame, nothingOffered]
    rfl
  · intro number within
    have earlier : number < turns.length := Nat.lt_of_succ_lt within
    have taken : turns[number] =
        (loop.afterTurns (script.take number)).turn (script.getD number []) :=
      loop.getElem_turns script number earlier
    have next : turns[number + 1] = turns[number].after.turn (script.getD (number + 1) []) := by
      rw [← loop.afterTurns_take_succ script number earlier]
      exact loop.getElem_turns script (number + 1) within
    rw [next, Loop.rendered_turn, Machine.value_takeFrame, taken, Loop.redraw_turn]

end Session

end ChipEight
