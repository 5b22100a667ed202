import ChipEight.Proofs.Machine.Background
import ChipEight.Proofs.Machine.Moments

/-!
# Programs that run alike with both roles

The roles of two registers differ in three instructions: the result goes to the second register or
to the first, the flag is written before the result or after it, and one instruction takes its flag
from another bit. None of this shows in a word whose two registers are one, other than the flag,
where that one bit is as the other. A program that executes the three instructions in such words
only does the same with both roles.
-/

namespace ChipEight

/-- Whether the word of a state does the same with both roles. -/
structure State.Portable (state : State) : Prop where
  same_register : Word.family state.word = 0x8 → (Word.last state.word).val ∈ [0x6, 0x7, 0xE] →
    Word.x state.word = Word.y state.word ∧ Word.x state.word ≠ Registers.flagRegister
  same_bit : Word.family state.word = 0x8 → (Word.last state.word).val = 0xE →
    lowBit (state.v (Word.x state.word)) = highBit (state.v (Word.x state.word))

namespace Registers

variable {x : Digit} (other : x ≠ flagRegister) (registers : Registers)

include other

/-- A result and the flag can be written in either order if they go to different registers. -/
theorem write_setFlag (raised : Bool) (value : UInt8) :
    (registers.write x value).setFlag raised = (registers.setFlag raised).write x value := by
  have places : x.val ≠ flagRegister.val := mt Fin.ext other
  simp only [write, setFlag, set, Vector.setIfInBound_comm _ _ places]

theorem shiftRight_roles (roles : ShiftRoles) :
    registers.shiftRight .canonical x x = registers.shiftRight roles x x := by
  cases roles with
  | canonical => rfl
  | legacy => exact registers.write_setFlag other _ _

theorem subtractReversed_roles (roles : ShiftRoles) :
    registers.subtractReversed .canonical x x = registers.subtractReversed roles x x := by
  cases roles with
  | canonical => rfl
  | legacy => exact registers.write_setFlag other _ _

theorem shiftLeft_roles (bits : lowBit (registers.read x) = highBit (registers.read x))
    (roles : ShiftRoles) :
    registers.shiftLeft .canonical x x = registers.shiftLeft roles x x := by
  cases roles with
  | canonical => rfl
  | legacy =>
      simp only [shiftLeft, bits]
      exact registers.write_setFlag other _ _

end Registers

/-- What an instruction does does not depend on the roles if its word is portable. -/
theorem Instruction.execute_roles {state : State} (portable : state.Portable)
    {instruction : Instruction} (stands : Word.StandsFor state.word instruction)
    (settings : Settings) (keypad : Keypad) (random : Random.Generator) :
    instruction.execute { settings with shiftRoles := .canonical } keypad random state.advance =
      instruction.execute settings keypad random state.advance := by
  cases stands with
  | shiftRight family last =>
      obtain ⟨same, other⟩ := portable.same_register family (by simp [last])
      simp only [execute, ← same, Registers.shiftRight_roles other _ settings.shiftRoles]
  | subtractReversed family last =>
      obtain ⟨same, other⟩ := portable.same_register family (by simp [last])
      simp only [execute, ← same, Registers.subtractReversed_roles other _ settings.shiftRoles]
  | shiftLeft family last =>
      obtain ⟨same, other⟩ := portable.same_register family (by simp [last])
      have bits := portable.same_bit family last
      simp only [execute, ← same,
        Registers.shiftLeft_roles other state.advance.registers bits settings.shiftRoles]
  | _ => rfl

namespace Machine

/-- The machine with canonical roles. -/
def canonical (machine : Machine) : Machine :=
  { machine with settings := { machine.settings with shiftRoles := .canonical } }

theorem recasts_canonical :
    Recasts (fun settings => { settings with shiftRoles := .canonical }) id :=
  ⟨fun _ => rfl, fun _ => rfl, fun _ => rfl⟩

theorem rewind_overlooks_roles : Overlooks canonical rewind := by
  intro machine
  cases past : machine.past with
  | nil =>
      have empty : machine.canonical.past = [] := past
      simp only [rewind, past, empty]
      exact erased_eq_iff.mpr ⟨rfl, rfl, rfl⟩
  | cons state older =>
      have newest : machine.canonical.past = state :: older := past
      simp only [rewind, past, newest]
      exact erased_eq_iff.mpr ⟨rfl, rfl, rfl⟩

theorem perform_overlooks_roles {action : Action} (idle : action.runsProgram = false) :
    Overlooks canonical fun machine => machine.perform action := by
  by_cases back : action = .rewind
  · subst back
    exact rewind_overlooks_roles.map _
  · exact recasts_canonical.perform idle back

section

variable {machine : Machine}

/-- A step that runs a portable word does not depend on the roles, and neither does a wait. -/
theorem step_canonical (portable : machine.isAwaitingKey = false → machine.state.Portable) :
    machine.canonical.step.erased canonical = machine.step.erased canonical := by
  cases waiting : machine.state.awaiting with
  | some register =>
      simp only [step, canonical, waiting]
      rfl
  | none =>
      have free : machine.canonical.state.awaiting = none := waiting
      cases decoded : Instruction.ofWord? machine.state.word with
      | none =>
          rw [step_of_unknown free decoded, step_of_unknown waiting decoded]
          rfl
      | some instruction =>
          have same := Instruction.execute_roles (portable (by simp [isAwaitingKey, waiting]))
            (Instruction.standsFor_of_ofWord? decoded) machine.settings machine.keypad
            machine.random
          rw [step_of_known free decoded, step_of_known waiting decoded]
          dsimp only [canonical]
          rw [same]
          rfl

end

variable {first second : Machine}

theorem state_eq_of_canonical_eq (alike : first.canonical = second.canonical) :
    first.state = second.state := by
  have same : first.canonical.state = second.canonical.state := congrArg (·.state) alike
  exact same

theorem cyclesPerTick_eq_of_canonical_eq (alike : first.canonical = second.canonical) :
    first.settings.cyclesPerTick = second.settings.cyclesPerTick := by
  have same : first.canonical.settings.cyclesPerTick = second.canonical.settings.cyclesPerTick :=
    congrArg (·.settings.cyclesPerTick) alike
  exact same

theorem step_of_portable (alike : first.canonical = second.canonical)
    (portable : first.isAwaitingKey = false → first.state.Portable) :
    first.step.erased canonical = second.step.erased canonical := by
  have also : second.isAwaitingKey = false → second.state.Portable := by
    rw [isAwaitingKey, ← state_eq_of_canonical_eq alike]
    exact portable
  rw [← step_canonical portable, alike, step_canonical also]

theorem steps_of_portable (alike : first.canonical = second.canonical) {count : Nat}
    (portable : ∀ moment ∈ first.moments count, moment.state.Portable) :
    (first.steps count).erased canonical = (second.steps count).erased canonical := by
  induction count generalizing first second with
  | zero => exact erased_eq_iff.mpr ⟨rfl, alike, rfl⟩
  | succ count ih =>
      have states := state_eq_of_canonical_eq alike
      cases awaiting : first.state.awaiting with
      | some register =>
          rw [steps_of_awaiting awaiting, steps_of_awaiting (states ▸ awaiting)]
          exact erased_eq_iff.mpr ⟨rfl, alike, rfl⟩
      | none =>
          have free : first.isAwaitingKey = false := by simp [isAwaitingKey, awaiting]
          rw [moments_succ_of_free free, List.forall_mem_cons] at portable
          have stepped := step_of_portable alike fun _ => portable.1
          obtain ⟨_, machines, _⟩ := erased_eq_iff.mp stepped
          exact erased_run_cons (congrArg (Reply.map Answer.outcome) stepped)
            (ih machines portable.2)

theorem runFrame_of_portable (alike : first.canonical = second.canonical)
    (portable : ∀ moment ∈ first.moments first.settings.cyclesPerTick.toNat,
      moment.state.Portable) :
    first.runFrame.erased canonical = second.runFrame.erased canonical := by
  obtain ⟨machines, notices, last⟩ := first.runFrame_eq_steps
  obtain ⟨otherMachines, otherNotices, otherLast⟩ := second.runFrame_eq_steps
  obtain ⟨values, after, reports⟩ := erased_eq_iff.mp (steps_of_portable alike portable)
  rw [cyclesPerTick_eq_of_canonical_eq alike] at machines notices last values after reports
  have outcomes : some (Answer.outcome first.runFrame.value) =
      some (Answer.outcome second.runFrame.value) := by
    rw [← last, values, otherLast]
  have ticked := congrArg tickTimers after
  rw [erased_eq_iff, machines, otherMachines, notices, otherNotices]
  exact ⟨Answer.outcome.inj (Option.some.inj outcomes), ticked, reports⟩

theorem perform_of_portable (alike : first.canonical = second.canonical) {action : Action}
    (portable : ∀ moment ∈ first.momentsOf action, moment.state.Portable) :
    (first.perform action).erased canonical = (second.perform action).erased canonical := by
  cases runs : action.runsProgram with
  | false => exact (perform_overlooks_roles runs).congr alike
  | true =>
      cases action with
      | step =>
          have stepped : first.step.erased canonical = second.step.erased canonical := by
            refine step_of_portable alike fun free => portable first ?_
            rw [momentsOf, moments_succ_of_free free]
            exact List.mem_cons_self
          exact congrArg (Reply.map Answer.outcome) stepped
      | runFrame => exact congrArg (Reply.map Answer.outcome) (runFrame_of_portable alike portable)
      | _ => cases runs

theorem run_of_portable (alike : first.canonical = second.canonical) {actions : List Action}
    (portable : ∀ moment ∈ first.momentsIn actions, moment.state.Portable) :
    (first.run actions).erased canonical = (second.run actions).erased canonical := by
  induction actions generalizing first second with
  | nil => exact erased_eq_iff.mpr ⟨rfl, alike, rfl⟩
  | cons action later ih =>
      rw [momentsIn, List.forall_mem_append] at portable
      have performed := perform_of_portable alike portable.1
      obtain ⟨_, machines, _⟩ := erased_eq_iff.mp performed
      exact erased_run_cons performed (ih machines portable.2)

end Machine

/-- A run of portable words does the same with both roles: it gives the same answers and notices,
and leads to the same state, past, keypad and random bytes. -/
theorem roles_are_invisible (settings : Settings) (seed : UInt64)
    (entropy otherEntropy : Random.Entropy) (actions : List Action)
    (portable : ∀ moment ∈ (Machine.start
      { settings with seed := some seed, shiftRoles := .legacy } entropy).momentsIn actions,
      moment.state.Portable) :
    let seeded := { settings with seed := some seed }
    let first := (Machine.start { seeded with shiftRoles := .legacy } entropy).run actions
    let second := (Machine.start { seeded with shiftRoles := .canonical } otherEntropy).run actions
    first.value = second.value ∧ first.notices = second.notices ∧
      first.machine.state = second.machine.state ∧
      first.machine.past = second.machine.past ∧
      first.machine.keypad = second.machine.keypad ∧
      first.machine.random = second.machine.random := by
  intro seeded first second
  have alike : (Machine.start { seeded with shiftRoles := .legacy } entropy).canonical =
      (Machine.start { seeded with shiftRoles := .canonical } otherEntropy).canonical := rfl
  obtain ⟨answers, machines, notices⟩ :=
    Machine.erased_eq_iff.mp (Machine.run_of_portable alike portable)
  have state := congrArg Machine.state machines
  have past := congrArg Machine.past machines
  have keypad := congrArg Machine.keypad machines
  have random := congrArg Machine.random machines
  exact ⟨answers, notices, state, past, keypad, random⟩

/-- Loads an instruction that doubles a register, and runs it where the bit that drops out is as
the one at the bottom. -/
def doublingActions : List Action :=
  [.loadProgram 0x200 #[0x80, 0x0E], .setRegister 0 0x81] ++ [.step]

theorem portable_doubling {state : State} (word : state.word = 0x800E)
    (value : state.v (Digit.ofNat 0) = 0x81) : state.Portable := by
  constructor
  · intro _ _
    rw [word]
    decide
  · intro _ _
    have x : Word.x 0x800E = Digit.ofNat 0 := rfl
    rw [word, x, value]
    decide

/-- Both roles double the register, and set the flag for a bit that is the same. -/
theorem doubling_hides_roles :
    let moments :=
      (Machine.start { seed := some 7, shiftRoles := .legacy } 1).momentsIn doublingActions
    let first := (Machine.start { seed := some 7, shiftRoles := .legacy } 1).run doublingActions
    let second := (Machine.start { seed := some 7, shiftRoles := .canonical } 2).run doublingActions
    moments.map (·.state.word) = [0x800E] ∧ (∀ moment ∈ moments, moment.state.Portable) ∧
      first.value = second.value ∧ first.notices = second.notices ∧
      first.machine.state = second.machine.state := by
  intro moments first second
  let loaded := ((Machine.start { seed := some 7, shiftRoles := .legacy } 1).run
    [.loadProgram 0x200 #[0x80, 0x0E], .setRegister 0 0x81]).machine
  have once : moments = [loaded] := rfl
  have memory : loaded.state.memory = Memory.initial.load 0x200 #[0x80, 0x0E] := rfl
  have here : loaded.state.registers.counter.toNat = 0x200 := rfl
  have word : loaded.state.word = 0x800E := by
    rw [State.word_of_loaded 0 memory here (by decide) (by decide)]
    decide
  have portable : ∀ moment ∈ moments, moment.state.Portable := by
    rw [once, List.forall_mem_singleton]
    exact portable_doubling word rfl
  have invisible := roles_are_invisible {} 7 1 2 doublingActions portable
  dsimp only at invisible
  obtain ⟨answers, notices, state, -⟩ := invisible
  refine ⟨?_, portable, answers, notices, state⟩
  rw [once, List.map_singleton, word]

end ChipEight
