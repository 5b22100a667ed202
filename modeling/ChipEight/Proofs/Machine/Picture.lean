import ChipEight.Proofs.Machine.Edit
import ChipEight.Proofs.Machine.Frame

/-!
# The picture of a machine

A machine offers its picture when it may have changed. This file collects what taking the
picture, stepping and going back do to the picture and to the offer. Together they keep what
a viewer relies on: a machine that offers nothing shows the picture the viewer has.
-/

namespace ChipEight.Machine

section

variable (machine : Machine)

theorem settings_takeFrame : machine.takeFrame.machine.settings = machine.settings := by
  unfold takeFrame
  cases machine.state.redraw <;> rfl

theorem past_takeFrame : machine.takeFrame.machine.past = machine.past := by
  unfold takeFrame
  cases machine.state.redraw <;> rfl

theorem keypad_takeFrame : machine.takeFrame.machine.keypad = machine.keypad := by
  unfold takeFrame
  cases machine.state.redraw <;> rfl

theorem screen_takeFrame : machine.takeFrame.machine.state.screen = machine.state.screen := by
  unfold takeFrame
  cases machine.state.redraw <;> rfl

theorem redraw_takeFrame : machine.takeFrame.machine.state.redraw = false := by
  unfold takeFrame
  cases offers : machine.state.redraw with
  | true => rfl
  | false => exact offers

theorem value_takeFrame :
    machine.takeFrame.value = if machine.state.redraw then some machine.state.screen else none := by
  unfold takeFrame
  cases machine.state.redraw <;> rfl

theorem settings_rewind : machine.rewind.machine.settings = machine.settings := by
  unfold rewind
  cases machine.past <;> rfl

theorem keypad_rewind : machine.rewind.machine.keypad = machine.keypad := by
  unfold rewind
  cases machine.past <;> rfl

/-- Going back asks for the picture to be drawn anew. -/
theorem redraw_rewind :
    machine.rewind.machine.state.redraw = (machine.state.redraw || machine.rewind.value) := by
  unfold rewind
  cases machine.past with
  | nil => exact (Bool.or_false _).symm
  | cons state older => exact (Bool.or_true _).symm

theorem machine_rewind_of_stuck (stuck : machine.rewind.value = false) :
    machine.rewind.machine = machine := by
  unfold rewind at stuck ⊢
  cases past : machine.past with
  | nil => rfl
  | cons state older =>
      rw [past] at stuck
      cases stuck

end

/-- Whatever a machine without an offer shows is this picture. -/
def Shows (machine : Machine) (picture : Screen) : Prop :=
  machine.state.redraw = false → machine.state.screen = picture

variable {machine : Machine} {picture : Screen}

theorem shows_start (settings : Settings) (entropy : Random.Entropy) :
    (start settings entropy).Shows Screen.dark :=
  fun _ => rfl

theorem Shows.edited {after : Machine} (shows : machine.Shows picture)
    (edited : machine.Edited after) : after.Shows picture := by
  intro offersNothing
  rw [edited.redraw_eq] at offersNothing
  rw [edited.screen_eq]
  exact shows offersNothing

theorem Shows.step (shows : machine.Shows picture) : machine.step.machine.Shows picture := by
  intro offersNothing
  rw [redraw_step, Bool.or_eq_false_iff] at offersNothing
  rw [machine.screen_step offersNothing.2]
  exact shows offersNothing.1

theorem Shows.runFrame (shows : machine.Shows picture) :
    machine.runFrame.machine.Shows picture := by
  apply runFrame_preserves (fun machine => machine.Shows picture) _ _ shows
  · intro machine before
    exact before.step
  · intro machine before
    exact before.edited machine.edited_tickTimers

theorem Shows.rewind (shows : machine.Shows picture) :
    machine.rewind.machine.Shows picture := by
  intro offersNothing
  rw [redraw_rewind, Bool.or_eq_false_iff] at offersNothing
  rw [machine.machine_rewind_of_stuck offersNothing.2]
  exact shows offersNothing.1

/-- Whoever takes the picture has the one that the machine shows. -/
theorem Shows.takeFrame (shows : machine.Shows picture) :
    machine.takeFrame.machine.state.screen = machine.takeFrame.value.getD picture := by
  rw [screen_takeFrame, value_takeFrame]
  cases offers : machine.state.redraw with
  | true => rfl
  | false => exact shows offers

end ChipEight.Machine
