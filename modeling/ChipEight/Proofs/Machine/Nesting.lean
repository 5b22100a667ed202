import ChipEight.Proofs.Machine.Calls

/-!
# Calls and returns nest

A call that goes through puts a frame on top of the calls in progress: the address after it.
Whatever the program does then, the frame and the calls below it stay as they are, until a
return takes the frame off again. That return goes to the address after the call and leaves
the calls below as they were before the call.

This holds for steps through any code, which may change itself, call itself or return without
a call, and for any edits in between. Going back and resets put other calls in place.
-/

namespace ChipEight

namespace Machine

variable {machine : Machine} {frame : UInt16} {outer : List UInt16}

theorem CallStep.inside_or_left {reply : Reply StepOutcome} (change : CallStep machine reply)
    (inside : (frame :: outer) <:+ machine.calls) :
    (frame :: outer) <:+ reply.machine.calls ∨
      (reply.value = .executed 0x00EE ∧ reply.machine.state.registers.counter = frame ∧
        reply.machine.calls = outer) := by
  cases change with
  | keeps same =>
      rw [same]
      exact .inl inside
  | enters room pushed =>
      rw [pushed]
      exact .inl (inside.trans (List.suffix_cons _ _))
  | leaves executed popped =>
      rw [popped, List.suffix_cons_iff] at inside
      rcases inside with top | deeper
      · obtain ⟨rfl, rfl⟩ := List.cons.inj top
        exact .inr ⟨executed, rfl, rfl⟩
      · exact .inl deeper

/-- An action leaves a frame in place, or it is the step that returns from it. -/
theorem inside_or_left_perform {action : Action} (plain : action = .step ∨ action.edits = true)
    (inside : (frame :: outer) <:+ machine.calls) :
    (frame :: outer) <:+ (machine.perform action).machine.calls ∨
      (action = .step ∧ machine.step.value = .executed 0x00EE ∧
        machine.step.machine.state.registers.counter = frame ∧
        machine.step.machine.calls = outer) := by
  rcases plain with rfl | edits
  · rcases machine.callStep_step.inside_or_left inside with stays | left
    · exact .inl stays
    · exact .inr ⟨rfl, left⟩
  · rw [machine.calls_perform edits]
    exact .inl inside

theorem length_lt_of_inside (inside : (frame :: outer) <:+ machine.calls) :
    outer.length < machine.calls.length :=
  Nat.lt_of_succ_le inside.length_le

theorem inside_run {actions : List Action}
    (plain : ∀ action ∈ actions, action = .step ∨ action.edits = true)
    (inside : (frame :: outer) <:+ machine.calls)
    (deep : ∀ earlier, earlier <+: actions →
      outer.length < (machine.run earlier).machine.calls.length) :
    (frame :: outer) <:+ (machine.run actions).machine.calls := by
  induction actions generalizing machine with
  | nil => exact inside
  | cons action later ih =>
      rw [machine_run_cons]
      rw [List.forall_mem_cons] at plain
      have afterFirst : outer.length < (machine.perform action).machine.calls.length :=
        deep [action] (List.prefix_append [action] later)
      have stays : (frame :: outer) <:+ (machine.perform action).machine.calls := by
        rcases inside_or_left_perform plain.1 inside with stays | ⟨rfl, _, _, left⟩
        · exact stays
        · change outer.length < machine.step.machine.calls.length at afterFirst
          rw [left] at afterFirst
          exact absurd afterFirst (Nat.lt_irrefl _)
      apply ih plain.2 stays
      intro earlier before
      exact deep (action :: earlier) ((List.prefix_cons_inj action).mpr before)

end Machine

/-- From a call that goes through to the return from it, the calls below it are out of reach. -/
theorem calls_nest (machine : Machine) (free : machine.state.awaiting = none) :
    let word := machine.state.word
    let back := machine.state.registers.counter + 2
    let called := machine.step.machine
    let passed := { machine.state with
      registers := { machine.state.registers with counter := back } }
    (Word.family word = 0x2 → Word.address word % 2 = 0 →
      (∀ most, machine.settings.stackLimit = some most → machine.calls.length < most) →
      (called.calls = back :: machine.calls ∧
        called.state.registers.counter = Word.address word) ∧
      ∀ actions : List Action,
        (∀ action ∈ actions, action = .step ∨ action.edits = true) →
        (∀ earlier, earlier <+: actions →
          machine.calls.length < (called.run earlier).machine.calls.length) →
        let reached := (called.run actions).machine
        (back :: machine.calls) <:+ reached.calls ∧
        ∀ action, action = .step ∨ action.edits = true →
          (reached.perform action).machine.calls.length ≤ machine.calls.length →
          action = .step ∧ reached.step.value = .executed 0x00EE ∧
            reached.step.machine.state.registers.counter = back ∧
            reached.step.machine.calls = machine.calls) ∧
    -- A call that is refused, and a return without a call in progress, pass the word over.
    (Word.family word = 0x2 →
      (Word.address word % 2 = 1 ∨
        ∃ most, machine.settings.stackLimit = some most ∧ most ≤ machine.calls.length) →
      called.state = passed) ∧
    (word = 0x00EE → machine.calls = [] → called.state = passed) := by
  intro word back called passed
  refine ⟨?_, ?_, ?_⟩
  · intro family even room
    have accepts : Instruction.Accepts machine.settings.stackLimit machine.state.advance
        (Word.address word) := ⟨even, room⟩
    have entered := Machine.state_step_of_accepted free family accepts
    have pushed : called.calls = back :: machine.calls :=
      congrArg (fun state => state.registers.stack) entered
    refine ⟨⟨pushed, congrArg (fun state => state.registers.counter) entered⟩, ?_⟩
    intro actions plain deep reached
    have inside : (back :: machine.calls) <:+ reached.calls :=
      Machine.inside_run plain (pushed ▸ List.suffix_refl _) deep
    refine ⟨inside, ?_⟩
    intro action plainly shallow
    rcases Machine.inside_or_left_perform plainly inside with stays | left
    · exact absurd (Machine.length_lt_of_inside stays) (Nat.not_lt.mpr shallow)
    · exact left
  · intro family refusal
    apply Machine.state_step_of_refused free family
    intro accepts
    rcases refusal with odd | ⟨most, limit, full⟩
    · have even := accepts.even
      grind
    · exact absurd (accepts.room most limit) (Nat.not_lt.mpr full)
  · intro isReturn nothing
    exact Machine.state_step_of_empty_return free isReturn nothing

/-- A call to the address after the next word, where there is a return. -/
def callProgram : Array UInt8 := #[0x22, 0x04, 0x00, 0x00, 0x00, 0xEE]

theorem word_callProgram {state : State}
    (loaded : state.memory = Memory.initial.load 0x200 callProgram) :
    (state.registers.counter = 0x200 → state.word = 0x2204) ∧
      (state.registers.counter = 0x204 → state.word = 0x00EE) := by
  constructor
  all_goals
    intro here
    simp [State.word, loaded, here, callProgram, Memory.read_load, Memory.room, Memory.size]

/-- A call, and the return from it after a key was released and the timers ticked. -/
theorem call_returns :
    let machine := ((Machine.start {} 0).run [.loadProgram 0x200 callProgram]).machine
    let reached := (machine.step.machine.run [.release 5, .tickTimers]).machine
    machine.state.awaiting = none ∧ machine.state.word = 0x2204 ∧ machine.calls = [] ∧
      [0x202] <:+ reached.calls ∧ reached.step.value = .executed 0x00EE ∧
      reached.step.machine.state.registers.counter = 0x202 ∧ reached.step.machine.calls = [] := by
  intro machine
  have loaded : machine.state.memory = Memory.initial.load 0x200 callProgram := rfl
  have counter : machine.state.registers.counter = 0x200 := rfl
  have outermost : machine.calls = [] := rfl
  have free : machine.state.awaiting = none := rfl
  have unlimited : machine.settings.stackLimit = none := rfl
  -- From here on the machine is known by these facts, so that nothing evaluates its memory.
  clear_value machine
  intro reached
  have word : machine.state.word = 0x2204 := (word_callProgram loaded).1 counter
  have family : Word.family machine.state.word = 0x2 := by
    rw [word]
    decide
  have even : Word.address machine.state.word % 2 = 0 := by
    rw [word]
    decide
  have room : ∀ most, machine.settings.stackLimit = some most → machine.calls.length < most := by
    simp [unlimited]
  obtain ⟨⟨pushed, _⟩, nested⟩ := (calls_nest machine free).1 family even room
  rw [counter, outermost] at pushed nested
  have edits : ∀ action ∈ [Action.release 5, .tickTimers], action.edits = true := by decide
  have deep : ∀ earlier, earlier <+: [.release 5, .tickTimers] →
      0 < (machine.step.machine.run earlier).machine.calls.length := by
    intro earlier before
    rw [Machine.calls_run _ fun action member => edits action (before.subset member), pushed]
    exact Nat.zero_lt_one
  obtain ⟨inside, left⟩ := nested _ (fun action member => .inr (edits action member)) deep
  have inProgress : reached.calls = [0x202] := (Machine.calls_run _ edits).trans pushed
  have ticks (machine : Machine) : (machine.run [.release 5, .tickTimers]).machine.state =
      machine.state.tickTimers := rfl
  have ticked : reached.state = machine.step.machine.state.tickTimers := ticks _
  rw [Machine.state_step_of_accepted free family ⟨even, room⟩, word] at ticked
  have atReturn : reached.state.word = 0x00EE := by
    apply (word_callProgram _).2
    · rw [ticked]
      rfl
    · rw [ticked]
      exact loaded
  have back := Machine.state_step_of_return (by rw [ticked]; exact free) atReturn inProgress
  have shallow : (reached.perform .step).machine.calls.length ≤ 0 := by
    rw [Machine.machine_perform_step, Machine.calls, back]
    exact Nat.le_refl 0
  obtain ⟨_, returned⟩ := left .step (.inl rfl) shallow
  exact ⟨free, word, outermost, inside, returned⟩

end ChipEight
