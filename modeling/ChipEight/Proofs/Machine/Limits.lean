import ChipEight.Proofs.Machine.Calls

/-!
# Limits that every machine keeps

The settings limit how many past states are kept and how many calls may be in progress. Only
a step checks them, and only where it keeps a state or enters a call. Going back, however, puts
an old state in place, so the limits have to hold of every past state too. Moreover no past
state waits for a key, since a state is kept only by a step that is taken.

This file states the limits for the current state and the past ones together, and shows that
nothing that can be done to a machine breaks them.
-/

namespace ChipEight

/-- As many calls are in progress as the limit allows, or fewer. -/
def State.FitsIn (limit : Option Nat) (state : State) : Prop :=
  ∀ most, limit = some most → state.registers.stack.length ≤ most

namespace Machine

/-- What holds of a machine and its past, whatever is done to it. -/
structure WithinLimits (machine : Machine) : Prop where
  length_past_le : machine.past.length ≤ machine.settings.historyDepth
  past_free : ∀ state ∈ machine.past, state.awaiting = none
  state_fits : machine.state.FitsIn machine.settings.stackLimit
  past_fits : ∀ state ∈ machine.past, state.FitsIn machine.settings.stackLimit

theorem withinLimits_start (settings : Settings) (entropy : Random.Entropy) :
    (start settings entropy).WithinLimits where
  length_past_le := Nat.zero_le _
  past_free := nofun
  state_fits := fun _ _ => Nat.zero_le _
  past_fits := nofun

variable {machine : Machine}

theorem WithinLimits.congr {after : Machine} (within : machine.WithinLimits)
    (settings : after.settings = machine.settings) (past : after.past = machine.past)
    (calls : after.calls = machine.calls) : after.WithinLimits := by
  obtain ⟨length, free, now, before⟩ := within
  rw [← past] at length free before
  rw [← settings] at length now before
  refine ⟨length, free, ?_, before⟩
  intro most limit
  rw [show after.state.registers.stack = machine.state.registers.stack from calls]
  exact now most limit

/-- A step leaves room for the calls in progress, since it enters a call only where there is
room for one more. -/
theorem fits_step (fits : machine.state.FitsIn machine.settings.stackLimit) :
    machine.step.machine.state.FitsIn machine.settings.stackLimit := by
  intro most limit
  change machine.step.machine.calls.length ≤ most
  have before : machine.calls.length ≤ most := fits most limit
  cases machine.callStep_step with
  | keeps same =>
      rw [same]
      exact before
  | enters room pushed =>
      rw [pushed]
      exact room most limit
  | leaves _ popped =>
      rw [popped, List.length_cons] at before
      exact Nat.le_of_succ_le before

/-- The states kept after a step are the one before it and some of those kept already. -/
theorem WithinLimits.remember (within : machine.WithinLimits)
    (free : machine.state.awaiting = none) : machine.remember.WithinLimits := by
  have kept : machine.remember.past =
      (machine.state :: machine.past).take machine.settings.historyDepth :=
    keepState_eq_take machine.state within.length_past_le
  have origin {state : State} (member : state ∈ machine.remember.past) :
      state = machine.state ∨ state ∈ machine.past := by
    rw [kept] at member
    exact List.mem_cons.mp (List.mem_of_mem_take member)
  refine ⟨?_, ?_, within.state_fits, ?_⟩
  · rw [kept]
    exact List.length_take_le ..
  · intro state member
    rcases origin member with rfl | old
    · exact free
    · exact within.past_free state old
  · intro state member
    rcases origin member with rfl | old
    · exact within.state_fits
    · exact within.past_fits state old

theorem WithinLimits.step (within : machine.WithinLimits) : machine.step.machine.WithinLimits := by
  have past := machine.past_step
  have fits := fits_step within.state_fits
  rw [← settings_step] at fits
  have fromPast {before : Machine} (kept : before.WithinLimits)
      (settings : before.settings = machine.settings)
      (past : machine.step.machine.past = before.past) : machine.step.machine.WithinLimits := by
    obtain ⟨length, free, _, fitted⟩ := kept
    rw [← past] at length free fitted
    rw [settings, ← machine.settings_step] at length fitted
    exact ⟨length, free, fits, fitted⟩
  cases awaiting : machine.state.awaiting with
  | some register =>
      rw [if_pos (by simp [isAwaitingKey, awaiting])] at past
      exact fromPast within rfl past
  | none =>
      rw [if_neg (by simp [isAwaitingKey, awaiting])] at past
      exact fromPast (within.remember awaiting) rfl past

theorem WithinLimits.runFrame (within : machine.WithinLimits) :
    machine.runFrame.machine.WithinLimits := by
  apply runFrame_preserves WithinLimits _ _ within
  · intro machine before
    exact before.step
  · intro machine before
    exact before.congr rfl rfl rfl

theorem WithinLimits.rewind (within : machine.WithinLimits) :
    machine.rewind.machine.WithinLimits := by
  unfold Machine.rewind
  cases past : machine.past with
  | nil => exact within
  | cons state older =>
      obtain ⟨length, free, _, fitted⟩ := within
      rw [past] at length free fitted
      rw [List.forall_mem_cons] at free fitted
      exact ⟨Nat.le_of_succ_le length, free.2, fitted.1, fitted.2⟩

theorem WithinLimits.awaiting_rewind (within : machine.WithinLimits)
    (done : machine.rewind.value = true) : machine.rewind.machine.isAwaitingKey = false := by
  unfold Machine.rewind at done ⊢
  cases past : machine.past with
  | nil =>
      rw [past] at done
      cases done
  | cons state older =>
      have free : state.awaiting = none := by
        apply within.past_free
        rw [past]
        exact List.mem_cons_self
      simp [isAwaitingKey, free]

theorem withinLimits_reset (machine : Machine) : machine.reset.WithinLimits where
  length_past_le := Nat.zero_le _
  past_free := nofun
  state_fits := fun _ _ => Nat.zero_le _
  past_fits := nofun

theorem WithinLimits.perform (within : machine.WithinLimits) (action : Action) :
    (machine.perform action).machine.WithinLimits := by
  cases edits : action.edits with
  | true =>
      have edited := machine.edited_perform edits
      exact within.congr edited.settings_eq edited.past_eq (machine.calls_perform edits)
  | false =>
      cases action with
      | step => exact within.step
      | runFrame => exact within.runFrame
      | rewind => exact within.rewind
      | reset => exact withinLimits_reset machine
      | takeFrame =>
          exact within.congr machine.settings_takeFrame machine.past_takeFrame
            machine.calls_takeFrame
      | _ => cases edits

theorem WithinLimits.run (within : machine.WithinLimits) (actions : List Action) :
    (machine.run actions).machine.WithinLimits :=
  run_preserves WithinLimits (fun action _ _ before => before.perform action) within

theorem settings_runFrame (machine : Machine) :
    machine.runFrame.machine.settings = machine.settings := by
  apply runFrame_preserves (fun after => after.settings = machine.settings) _ _ rfl
  · intro after same
    rw [settings_step, same]
  · intro after same
    exact same

theorem settings_perform (machine : Machine) (action : Action) :
    (machine.perform action).machine.settings = machine.settings := by
  cases edits : action.edits with
  | true => exact (machine.edited_perform edits).settings_eq
  | false =>
      cases action with
      | step => exact machine.settings_step
      | runFrame => exact machine.settings_runFrame
      | rewind => exact machine.settings_rewind
      | reset => rfl
      | takeFrame => exact machine.settings_takeFrame
      | _ => cases edits

/-- The settings stay fixed. -/
theorem settings_run (machine : Machine) (actions : List Action) :
    (machine.run actions).machine.settings = machine.settings := by
  apply run_preserves (fun after => after.settings = machine.settings) _ rfl
  intro action _ after same
  rw [settings_perform, same]

end Machine

/-- Whatever is done to a machine, its history and its calls stay within the limits, and it
cannot be brought back into a wait. -/
theorem limits_hold (settings : Settings) (entropy : Random.Entropy) (actions : List Action) :
    let machine := ((Machine.start settings entropy).run actions).machine
    (machine.past.length ≤ settings.historyDepth ∧
      (settings.historyDepth = 0 → machine.past = [])) ∧
    ((∀ state ∈ machine.past, state.awaiting = none) ∧
      (machine.rewind.value = true → machine.rewind.machine.isAwaitingKey = false)) ∧
    (∀ register, machine.state.awaiting = some register → register.val < 16) ∧
    (∀ most, settings.stackLimit = some most →
      ∀ state ∈ machine.state :: machine.past, state.registers.stack.length ≤ most) ∧
    -- Where no call may be in progress, every call is refused.
    (settings.stackLimit = some 0 → machine.state.awaiting = none →
      Word.family machine.state.word = 0x2 →
      machine.step.machine.state = machine.state.advance) := by
  intro machine
  have within : machine.WithinLimits := (Machine.withinLimits_start settings entropy).run actions
  have same : machine.settings = settings := Machine.settings_run _ actions
  have awaiting := within.awaiting_rewind
  obtain ⟨length, free, fits, fitted⟩ := within
  rw [same] at length fits fitted
  refine ⟨⟨length, ?_⟩, ⟨free, awaiting⟩, fun register _ => register.isLt, ?_, ?_⟩
  · intro none
    rw [none, Nat.le_zero] at length
    exact List.eq_nil_of_length_eq_zero length
  · intro most limit
    exact List.forall_mem_cons.mpr
      ⟨fits most limit, fun state member => fitted state member most limit⟩
  · intro limit running family
    apply Machine.state_step_of_refused running family
    intro accepts
    exact absurd (accepts.room 0 (same ▸ limit)) (Nat.not_lt_zero _)

end ChipEight
