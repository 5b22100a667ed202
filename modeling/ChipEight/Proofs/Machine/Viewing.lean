import ChipEight.Proofs.Machine.Picture

/-!
# Pictures taken from a machine

A machine hands out its picture when it may have changed. Whoever takes pictures and is
handed none concludes that the one taken last still shows the screen. Drawing, darkening
and going back all make the machine offer its picture again. A reset does not, although it
darkens the screen.

This file follows someone who takes pictures from a machine to which anything may be done,
and states exactly when that conclusion is right.
-/

namespace ChipEight

/-- Someone who takes pictures from a machine: the picture handed out last, or the dark one,
and whether the machine has been reset since then. -/
structure Viewer where
  picture : Screen
  outdated : Bool

namespace Viewer

def start : Viewer := ⟨Screen.dark, false⟩

def see (viewer : Viewer) : Action → Answer → Viewer
  | .reset, _ => { viewer with outdated := true }
  | _, .frame (some picture) => ⟨picture, false⟩
  | _, _ => viewer

def watch (viewer : Viewer) : List Action → List Answer → Viewer
  | action :: actions, answer :: answers => (viewer.see action answer).watch actions answers
  | _, _ => viewer

/-- What the screen shows while the machine offers nothing new. -/
def expected (viewer : Viewer) : Screen :=
  if viewer.outdated then Screen.dark else viewer.picture

variable {viewer : Viewer} {machine : Machine}

theorem shows_takeFrame (shows : machine.Shows viewer.expected) :
    machine.takeFrame.machine.Shows
      (viewer.see .takeFrame (.frame machine.takeFrame.value)).expected := by
  intro _
  rw [shows.takeFrame]
  cases machine.takeFrame.value <;> rfl

theorem see_of_edits {action : Action} (edits : action.edits = true) :
    viewer.see action (machine.perform action).value = viewer := by
  cases action with
  | step | runFrame | rewind | reset | takeFrame => cases edits
  | _ => rfl

theorem shows_perform (shows : machine.Shows viewer.expected) (action : Action) :
    (machine.perform action).machine.Shows
      (viewer.see action (machine.perform action).value).expected := by
  cases edits : action.edits with
  | true =>
      rw [see_of_edits edits]
      exact shows.edited (machine.edited_perform edits)
  | false =>
      cases action with
      | step => exact shows.step
      | runFrame => exact shows.runFrame
      | rewind => exact shows.rewind
      | reset => exact fun _ => rfl
      | takeFrame => exact shows_takeFrame shows
      | _ => cases edits

theorem shows_run (shows : machine.Shows viewer.expected) (actions : List Action) :
    (machine.run actions).machine.Shows
      (viewer.watch actions (machine.run actions).value).expected := by
  induction actions generalizing viewer machine with
  | nil => exact shows
  | cons action later ih => exact ih (shows_perform shows action)

theorem watch_run_append (viewer : Viewer) (machine : Machine) (first second : List Action) :
    viewer.watch (first ++ second) (machine.run (first ++ second)).value =
      (viewer.watch first (machine.run first).value).watch second
        ((machine.run first).machine.run second).value := by
  induction first generalizing viewer machine with
  | nil => rfl
  | cons action later ih => exact ih ..

theorem watch_takeFrame_reset (offers : machine.state.redraw = true) :
    viewer.watch [.takeFrame, .reset] (machine.run [.takeFrame, .reset]).value =
      ⟨machine.state.screen, true⟩ := by
  simp [Machine.run, Machine.perform, Machine.takeFrame, offers, watch, see]

end Viewer

theorem State.pixel_draw_corner (state : State) (x : Digit) (corner : state.v x = 0)
    (dark : state.screen = Screen.dark) (dot : state.memory.read state.target = 0x80) :
    (state.draw x x (Digit.ofNat 1)).screen.pixel 0 0 = true := by
  have bytes : (List.range (Digit.ofNat 1).val).map
      (fun place => state.memory.read (state.target + place)) = [0x80] := by
    simp [List.range_succ, dot]
  simp only [State.draw, corner, dark, bytes, Screen.pixel_invert, Screen.pixel_dark]
  rfl

/-- Puts an instruction that draws where the machine starts, and a dot where it draws from. -/
def dotProgram : List Action :=
  [.loadProgram 0x200 #[0xD0, 0x01], .writeMemory 0 0x80]

theorem state_step_dotProgram :
    let machine := ((Machine.start {} 0).run dotProgram).machine
    machine.step.machine.state.redraw = true ∧
      machine.step.machine.state.screen.pixel 0 0 = true := by
  intro machine
  have dot : machine.state.memory.read 0 = 0x80 := by
    simp only [machine, dotProgram, Machine.run, Machine.perform, Machine.writeMemory,
      Machine.modifyState, Memory.read_write]
    rfl
  have word : machine.state.word = 0xD001 := by
    simp [machine, dotProgram, Machine.run, Machine.perform, Machine.loadProgram,
      Machine.writeMemory, Machine.modifyState, Machine.start, State.start, State.word,
      Registers.start, Memory.read_write, Memory.read_load, Memory.room, Memory.size]
  have decoded : Instruction.ofWord? machine.state.word =
      some (.draw (Digit.ofNat 0) (Digit.ofNat 0) (Digit.ofNat 1)) := by
    rw [word]
    rfl
  rw [Machine.state_step_of_known rfl decoded]
  exact ⟨rfl, State.pixel_draw_corner _ _ rfl rfl dot⟩

theorem reset_hides_change (machine : Machine) (viewer : Viewer)
    (offers : machine.state.redraw = true) (lit : machine.state.screen ≠ Screen.dark) :
    let reply := machine.run [.takeFrame, .reset]
    reply.machine.takeFrame.value = none ∧
      reply.machine.state.screen ≠ (viewer.watch [.takeFrame, .reset] reply.value).picture := by
  intro reply
  have dark : reply.machine.state.screen = Screen.dark := rfl
  refine ⟨rfl, ?_⟩
  rw [dark, Viewer.watch_takeFrame_reset offers]
  exact lit.symm

/-- A machine that hands out no picture shows the one handed out last, unless it has been reset
since then. After a reset it does so only if that picture was dark. -/
theorem takeFrame_none_shows_last_iff (settings : Settings) (entropy : Random.Entropy)
    (actions : List Action) :
    let reply := (Machine.start settings entropy).run actions
    let viewer := Viewer.start.watch actions reply.value
    (reply.machine.takeFrame.value = none → reply.machine.state.screen = viewer.expected) ∧
    ((reply.machine.takeFrame.value = none → reply.machine.state.screen = viewer.picture) ↔
      reply.machine.state.redraw = true ∨ viewer.outdated = false ∨
        viewer.picture = Screen.dark) := by
  intro reply viewer
  have shows : reply.machine.Shows viewer.expected :=
    Viewer.shows_run (Machine.shows_start settings entropy) actions
  cases offers : reply.machine.state.redraw with
  | true => simp [Machine.value_takeFrame, offers]
  | false =>
      simp only [Machine.value_takeFrame, offers, shows offers]
      cases outdated : viewer.outdated <;> simp [Viewer.expected, outdated, eq_comm]

/-- The screen of a machine that has drawn a dot is dark after a reset, and yet no picture is
handed out. -/
theorem reset_hides_dot :
    let actions := dotProgram ++ [.step] ++ [.takeFrame, .reset]
    let reply := (Machine.start {} 0).run actions
    reply.machine.takeFrame.value = none ∧
      reply.machine.state.screen ≠ (Viewer.start.watch actions reply.value).picture := by
  intro actions reply
  obtain ⟨offers, lit⟩ := state_step_dotProgram
  rw [← Machine.machine_run_concat_step] at offers lit
  have notDark : ((Machine.start {} 0).run (dotProgram ++ [.step])).machine.state.screen ≠
      Screen.dark := by
    intro dark
    rw [dark, Screen.pixel_dark] at lit
    cases lit
  simp only [actions, reply]
  rw [Viewer.watch_run_append, Machine.machine_run_append]
  exact reset_hides_change _ _ offers notDark

end ChipEight
