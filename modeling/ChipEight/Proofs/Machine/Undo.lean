import ChipEight.Proofs.Machine.Picture

/-!
# Rewinding as bounded undo

An undo stack without bound notes the state before every step that is taken, loses its
newest state when the machine goes back, and is emptied by a reset. A machine keeps its
past in a list of limited length instead, and drops the oldest state when there is no room.

This file runs the two side by side. Beside the stack goes a count of the states that are
still within reach: it grows with every step up to the limit, shrinks with every rewind and
starts again at a reset. Whatever is done to the machine, its past is the part of the stack
within reach, so that going back succeeds exactly as long as the count says so.
-/

namespace ChipEight

/-- An undo stack without bound, and how much of it is within reach of a machine. -/
structure UndoStack where
  /-- The states before the steps that were not undone, the newest first. -/
  states : List State
  /-- How many rewinds would succeed. -/
  reach : Nat

namespace UndoStack

def empty : UndoStack := ⟨[], 0⟩

/-- The stack after a step. A step that finds the machine waiting for a key is none. -/
def afterStep (undo : UndoStack) (machine : Machine) : UndoStack :=
  if machine.isAwaitingKey then undo
  else ⟨machine.state :: undo.states, min (undo.reach + 1) machine.settings.historyDepth⟩

def afterSteps (undo : UndoStack) (machine : Machine) : Nat → UndoStack
  | 0 => undo
  | count + 1 => (undo.afterStep machine).afterSteps machine.step.machine count

def pop (undo : UndoStack) : UndoStack := ⟨undo.states.tail, undo.reach - 1⟩

def afterAction (undo : UndoStack) (machine : Machine) : Action → UndoStack
  | .step => undo.afterStep machine
  | .runFrame => undo.afterSteps machine machine.frameSteps
  | .rewind => if machine.rewind.value then undo.pop else undo
  | .reset => empty
  | _ => undo

def afterRun (undo : UndoStack) (machine : Machine) : List Action → UndoStack
  | [] => undo
  | action :: later =>
    (undo.afterAction machine action).afterRun (machine.perform action).machine later

/-- The past of a machine is the part of an undo stack within reach, and the settings allow
that much. -/
structure Describes (undo : UndoStack) (machine : Machine) : Prop where
  past_eq : machine.past = undo.states.take undo.reach
  reach_le_length : undo.reach ≤ undo.states.length
  reach_le_depth : undo.reach ≤ machine.settings.historyDepth

variable {undo : UndoStack} {machine : Machine}

theorem describes_start (settings : Settings) (entropy : Random.Entropy) :
    empty.Describes (Machine.start settings entropy) :=
  ⟨rfl, Nat.le_refl 0, Nat.zero_le _⟩

theorem Describes.length_past (describes : undo.Describes machine) :
    machine.past.length = undo.reach := by
  rw [describes.past_eq, List.length_take, Nat.min_eq_left describes.reach_le_length]

theorem Describes.congr {after : Machine} (describes : undo.Describes machine)
    (past : after.past = machine.past) (settings : after.settings = machine.settings) :
    undo.Describes after := by
  obtain ⟨past_eq, within, allowed⟩ := describes
  exact ⟨past.trans past_eq, within, settings ▸ allowed⟩

theorem Describes.step (describes : undo.Describes machine) :
    (undo.afterStep machine).Describes machine.step.machine := by
  have past := machine.past_step
  by_cases waits : machine.isAwaitingKey = true
  · rw [if_pos waits] at past
    rw [afterStep, if_pos waits]
    exact describes.congr past machine.settings_step
  · rw [if_neg waits] at past
    rw [afterStep, if_neg waits]
    have room : machine.past.length ≤ machine.settings.historyDepth := by
      rw [describes.length_past]
      exact describes.reach_le_depth
    refine ⟨?_, ?_, ?_⟩
    · -- Behind the new state, what drops out of reach is what the limit cuts off.
      rw [past, Machine.remember, Machine.keepState_eq_take machine.state room,
        describes.past_eq, ← List.take_succ_cons, List.take_take, Nat.min_comm]
    · have within := describes.reach_le_length
      simp only [List.length_cons]
      omega
    · rw [Machine.settings_step]
      exact Nat.min_le_right ..

theorem Describes.steps (describes : undo.Describes machine) (count : Nat) :
    (undo.afterSteps machine count).Describes (machine.afterSteps count) := by
  induction count generalizing undo machine with
  | zero => exact describes
  | succ count ih => exact ih describes.step

theorem Describes.runFrame (describes : undo.Describes machine) :
    (undo.afterSteps machine machine.frameSteps).Describes machine.runFrame.machine := by
  rw [Machine.machine_runFrame]
  exact (describes.steps machine.frameSteps).congr rfl rfl

/-- Going back takes the newest state off the stack if one is within reach, and otherwise
does nothing. -/
theorem Describes.rewind_cases (describes : undo.Describes machine) :
    (∃ state older, undo.states = state :: older ∧ 0 < undo.reach ∧
      machine.rewind.value = true ∧
      machine.rewind.machine =
        { machine with
          state := { state with redraw := true }
          past := older.take (undo.reach - 1) }) ∨
    (undo.reach = 0 ∧ machine.rewind.value = false ∧ machine.rewind.machine = machine) := by
  have past := describes.past_eq
  rcases Nat.eq_zero_or_pos undo.reach with nothing | something
  · rw [nothing, List.take_zero] at past
    simp [Machine.rewind, past, nothing]
  · cases stack : undo.states with
    | nil =>
        have within := describes.reach_le_length
        rw [stack, List.length_nil] at within
        omega
    | cons state older =>
        rw [stack, List.take_cons something] at past
        exact .inl ⟨state, older, rfl, something, by simp [Machine.rewind, past]⟩

theorem Describes.rewind (describes : undo.Describes machine) :
    (if machine.rewind.value then undo.pop else undo).Describes machine.rewind.machine := by
  have within := describes.reach_le_length
  have allowed := describes.reach_le_depth
  rcases describes.rewind_cases with ⟨state, older, stack, _, done, after⟩ | ⟨_, none, after⟩
  · rw [done, after, if_pos rfl]
    rw [stack, List.length_cons] at within
    refine ⟨by simp [pop, stack], ?_, ?_⟩
    · simp only [pop, stack, List.tail_cons]
      omega
    · simp only [pop]
      omega
  · rw [none, after]
    exact describes

theorem afterAction_of_edits {action : Action} (edits : action.edits = true) :
    undo.afterAction machine action = undo := by
  cases action with
  | step | runFrame | rewind | reset | takeFrame => cases edits
  | _ => rfl

theorem Describes.perform (describes : undo.Describes machine) (action : Action) :
    (undo.afterAction machine action).Describes (machine.perform action).machine := by
  cases edits : action.edits with
  | true =>
      have edited := machine.edited_perform edits
      rw [afterAction_of_edits edits]
      exact describes.congr edited.past_eq edited.settings_eq
  | false =>
      cases action with
      | step => exact describes.step
      | runFrame => exact describes.runFrame
      | rewind => exact describes.rewind
      | reset => exact ⟨rfl, Nat.le_refl 0, Nat.zero_le _⟩
      | takeFrame => exact describes.congr machine.past_takeFrame machine.settings_takeFrame
      | _ => cases edits

theorem Describes.run (describes : undo.Describes machine) (actions : List Action) :
    (undo.afterRun machine actions).Describes (machine.run actions).machine := by
  induction actions generalizing undo machine with
  | nil => exact describes
  | cons action later ih =>
      rw [Machine.machine_run_cons]
      exact ih (describes.perform action)

end UndoStack

/-- Rewinding is undo with a limit, whatever is done to a machine. -/
theorem rewind_undoes_newest_steps (settings : Settings) (entropy : Random.Entropy)
    (actions : List Action) :
    let machine := ((Machine.start settings entropy).run actions).machine
    let undo := UndoStack.empty.afterRun (Machine.start settings entropy) actions
    -- The past is what an unbounded stack holds within reach.
    (machine.past = undo.states.take undo.reach ∧ machine.past.length = undo.reach) ∧
    (machine.rewind.value = true ↔ 0 < undo.reach) ∧
    -- Going back restores the newest state, or else does nothing.
    ((∃ state older, undo.states = state :: older ∧ machine.rewind.value = true ∧
        machine.rewind.machine.state = { state with redraw := true }) ∨
      (machine.rewind.value = false ∧ machine.rewind.machine = machine)) ∧
    machine.rewind.machine.keypad = machine.keypad ∧
    machine.rewind.machine.settings = machine.settings ∧
    machine.rewind.machine.random = machine.random := by
  intro machine undo
  have describes : undo.Describes machine :=
    (UndoStack.describes_start settings entropy).run actions
  refine ⟨⟨describes.past_eq, describes.length_past⟩, ?_⟩
  rcases describes.rewind_cases with
    ⟨state, older, stack, within, done, after⟩ | ⟨nothing, none, after⟩
  · rw [done, after]
    exact ⟨by simp [within], .inl ⟨state, older, stack, rfl, rfl⟩, rfl, rfl, rfl⟩
  · rw [none, after]
    exact ⟨by simp [nothing], .inr ⟨rfl, rfl⟩, rfl, rfl, rfl⟩

end ChipEight
