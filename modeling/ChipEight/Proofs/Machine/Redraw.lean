import ChipEight.Proofs.Machine.Erasure
import ChipEight.Proofs.Machine.Step

/-!
# The wish to have the picture drawn anew

Every state is marked with whether its picture may have changed since it was last taken. The
mark is for whoever takes pictures: no instruction looks at it, and neither does any other
action. So machines that differ in the marks of their states, past ones included, go on alike.
-/

namespace ChipEight

/-- A state without its mark. -/
def State.unmarked (state : State) : State := { state with redraw := false }

@[simp]
theorem State.map_unmarked_map_unmarked (past : List State) :
    (past.map unmarked).map unmarked = past.map unmarked := by
  rw [List.map_map]
  rfl

/-- An effect without the mark of its state. -/
def Effect.unmarked (effect : Effect) : Effect := { effect with state := effect.state.unmarked }

/-- What an instruction does to the rest of a state does not depend on the mark. -/
theorem Instruction.unmarked_execute (settings : Settings) (keypad : Keypad)
    (random : Random.Generator) (state : State) (instruction : Instruction) :
    (instruction.execute settings keypad random state.unmarked).unmarked =
      (instruction.execute settings keypad random state).unmarked := by
  cases instruction with
  | leave =>
      simp only [execute, leaveCall, State.unmarked]
      cases state.registers.pop? <;> rfl
  | call address =>
      have limited : reachedLimit? settings.stackLimit state.unmarked =
          reachedLimit? settings.stackLimit state := rfl
      simp only [execute, enterCall, limited]
      split
      · rfl
      · cases reachedLimit? settings.stackLimit state <;> rfl
  | skipIfValue | skipUnlessValue | skipIfEqual | skipUnlessEqual | skipIfDown | skipUnlessDown =>
      simp only [execute, skipIf_eq]
      rfl
  | fill =>
      simp only [execute, State.fill, State.passRegisters, State.setIndex]
      rfl
  | _ => rfl

namespace Machine

/-- A machine without the marks of its states. -/
def unmarked (machine : Machine) : Machine :=
  { machine with
    state := machine.state.unmarked
    past := machine.past.map State.unmarked }

theorem unmarked_eq_iff {first second : Machine} :
    first.unmarked = second.unmarked ↔
      first.settings = second.settings ∧ first.state.unmarked = second.state.unmarked ∧
        first.past.map State.unmarked = second.past.map State.unmarked ∧
        first.keypad = second.keypad ∧ first.random = second.random := by
  simp [unmarked]

theorem map_unmarked_past_unmarked (machine : Machine) :
    machine.unmarked.past.map State.unmarked = machine.past.map State.unmarked :=
  State.map_unmarked_map_unmarked machine.past

/-- Changing the state and the keypad does without the marks if the new state does. -/
theorem unmarked_edit (machine : Machine) {state other : State}
    (same : state.unmarked = other.unmarked) (keypad : Keypad) :
    { machine.unmarked with state := state, keypad := keypad }.unmarked =
      { machine with state := other, keypad := keypad }.unmarked :=
  unmarked_eq_iff.mpr ⟨rfl, same, machine.map_unmarked_past_unmarked, rfl, rfl⟩

@[simp]
theorem unmarked_unmarked (machine : Machine) : machine.unmarked.unmarked = machine.unmarked :=
  machine.unmarked_edit rfl _

theorem map_keepState (change : State → State) (depth : Nat) (state : State) (past : List State) :
    (keepState depth state past).map change =
      keepState depth (change state) (past.map change) := by
  simp only [keepState, List.length_map]
  split
  · rfl
  · split
    · rw [List.map_cons, List.map_dropLast]
    · rfl

theorem map_unmarked_past_remember (machine : Machine) :
    machine.unmarked.remember.past.map State.unmarked =
      machine.remember.past.map State.unmarked := by
  simp only [remember, map_keepState, map_unmarked_past_unmarked]
  rfl

/-- A step marks its state if it draws, but what else it does, it does without the marks. -/
theorem step_overlooks_marks : Overlooks unmarked step := by
  intro machine
  have past := machine.map_unmarked_past_remember
  cases waiting : machine.state.awaiting with
  | some register =>
      have waits : machine.unmarked.state.awaiting = some register := waiting
      simp only [step, waits, waiting]
      exact erased_eq_iff.mpr ⟨rfl, machine.unmarked_unmarked, rfl⟩
  | none =>
      have free : machine.unmarked.state.awaiting = none := waiting
      cases decoded : Instruction.ofWord? machine.state.word with
      | none =>
          rw [step_of_unknown free decoded, step_of_unknown waiting decoded]
          exact erased_eq_iff.mpr ⟨rfl, unmarked_eq_iff.mpr ⟨rfl, rfl, past, rfl, rfl⟩, rfl⟩
      | some instruction =>
          rw [step_of_known free decoded, step_of_known waiting decoded]
          have effects := Instruction.unmarked_execute machine.settings machine.keypad
            machine.random machine.state.advance instruction
          have states := congrArg Effect.state effects
          have randoms := congrArg Effect.random effects
          have notices := congrArg Effect.notice effects
          have outcomes := congrArg (StepOutcome.ofState machine.state.word) states
          have reports := congrArg
            (fun notice => #[fetchNotice machine.state] ++ Option.toArray notice) notices
          exact erased_eq_iff.mpr
            ⟨outcomes, unmarked_eq_iff.mpr ⟨rfl, states, past, rfl, randoms⟩, reports⟩

theorem unmarked_tickTimers (machine : Machine) :
    machine.unmarked.tickTimers.unmarked = machine.tickTimers.unmarked :=
  machine.unmarked_edit rfl _

theorem unmarked_tickTimers_congr {first second : Machine}
    (alike : first.unmarked = second.unmarked) :
    first.tickTimers.unmarked = second.tickTimers.unmarked := by
  rw [← first.unmarked_tickTimers, alike, second.unmarked_tickTimers]

/-- Taking the picture changes nothing but the mark. -/
theorem unmarked_takeFrame (machine : Machine) :
    machine.takeFrame.machine.unmarked = machine.unmarked := by
  unfold takeFrame
  cases machine.state.redraw <;> rfl

theorem runFrame_overlooks_marks : Overlooks unmarked runFrame :=
  step_overlooks_marks.runFrame (fun _ => rfl) unmarked_tickTimers

/-- Going back marks the state that is restored, whatever its mark was. -/
theorem rewind_overlooks_marks : Overlooks unmarked rewind := by
  intro machine
  cases past : machine.past with
  | nil =>
      have empty : machine.unmarked.past = [] := congrArg (List.map State.unmarked) past
      simp only [rewind, past, empty]
      exact erased_eq_iff.mpr ⟨rfl, machine.unmarked_unmarked, rfl⟩
  | cons state older =>
      have newest : machine.unmarked.past = state.unmarked :: older.map State.unmarked :=
        congrArg (List.map State.unmarked) past
      have rest := State.map_unmarked_map_unmarked older
      simp only [rewind, past, newest]
      exact erased_eq_iff.mpr ⟨rfl, unmarked_eq_iff.mpr ⟨rfl, rfl, rest, rfl, rfl⟩, rfl⟩

theorem loadRom_overlooks_marks (source : RomSource) :
    Overlooks unmarked fun machine => machine.loadRom source := by
  intro machine
  have settings : machine.unmarked.settings = machine.settings := rfl
  cases source with
  | broken => exact erased_eq_iff.mpr ⟨rfl, machine.unmarked_unmarked, rfl⟩
  | complete bytes =>
      simp only [loadRom, settings]
      split
      · exact erased_eq_iff.mpr ⟨rfl, machine.unmarked_unmarked, rfl⟩
      · exact erased_eq_iff.mpr ⟨rfl, machine.unmarked_edit rfl _, rfl⟩

theorem pressKey_overlooks_marks (key : Key) :
    Overlooks unmarked fun machine => machine.pressKey key := by
  intro machine
  have awaiting : machine.unmarked.state.awaiting = machine.state.awaiting := rfl
  simp only [pressKey, awaiting]
  cases machine.state.awaiting with
  | none => exact erased_eq_iff.mpr ⟨rfl, machine.unmarked_edit rfl _, rfl⟩
  | some register => exact erased_eq_iff.mpr ⟨rfl, machine.unmarked_edit rfl _, rfl⟩

theorem cancelWait_overlooks_marks : Overlooks unmarked cancelWait := by
  intro machine
  have awaiting : machine.unmarked.state.awaiting = machine.state.awaiting := rfl
  simp only [cancelWait, awaiting]
  cases machine.state.awaiting with
  | none => exact erased_eq_iff.mpr ⟨rfl, machine.unmarked_unmarked, rfl⟩
  | some register => exact erased_eq_iff.mpr ⟨rfl, machine.unmarked_edit rfl _, rfl⟩

/-- Only taking the picture looks at a mark. -/
theorem perform_overlooks_marks {action : Action} (blind : action ≠ .takeFrame) :
    Overlooks unmarked fun machine => machine.perform action := by
  cases action with
  | takeFrame => exact absurd rfl blind
  | step => exact step_overlooks_marks.map _
  | runFrame => exact runFrame_overlooks_marks.map _
  | rewind => exact rewind_overlooks_marks.map _
  | loadRom source => exact (loadRom_overlooks_marks source).map _
  | cancelWait => exact cancelWait_overlooks_marks.map _
  | reset => exact fun machine => rfl
  | press byte => exact (Overlooks.press pressKey_overlooks_marks unmarked_unmarked byte).map _
  | labelDown label =>
      exact (Overlooks.labelDown pressKey_overlooks_marks unmarked_unmarked label).map _
  | labelUp label =>
      intro machine
      simp only [perform, labelUp]
      cases Keyboard.keyOfLabel? label with
      | none => exact erased_eq_iff.mpr ⟨rfl, machine.unmarked_unmarked, rfl⟩
      | some key => exact erased_eq_iff.mpr ⟨rfl, machine.unmarked_edit rfl _, rfl⟩
  | _ => exact fun machine => erased_eq_iff.mpr ⟨rfl, machine.unmarked_edit rfl _, rfl⟩

end Machine

end ChipEight
