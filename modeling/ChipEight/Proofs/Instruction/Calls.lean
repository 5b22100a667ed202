import ChipEight.Proofs.Instruction.Registers

/-!
# Calls and returns

Two instructions touch the return addresses. A call goes through if its target is even and
the limit leaves room for it; then the address after it is pushed. A return goes to the newest
address and drops it. A call that is refused, and a return without a call in progress, do
nothing.
-/

namespace ChipEight.Instruction

/-- What it takes for a call to go through. -/
structure Accepts (limit : Option Nat) (state : State) (address : UInt16) : Prop where
  even : address % 2 = 0
  room : ∀ most, limit = some most → state.registers.stack.length < most

/-- The ways in which an instruction changes the return addresses. -/
inductive CallChange (limit : Option Nat) (state : State) : Instruction → State → Prop where
  | keeps {instruction : Instruction} {after : State}
      (same : after.registers.stack = state.registers.stack) :
      CallChange limit state instruction after
  | enters {address : UInt16} {after : State} (accepts : Accepts limit state address)
      (pushed : after.registers.stack = state.registers.counter :: state.registers.stack) :
      CallChange limit state (.call address) after
  | leaves {after : State}
      (popped : state.registers.stack = after.registers.counter :: after.registers.stack) :
      CallChange limit state .leave after

variable {limit : Option Nat} {state : State} {address : UInt16}

theorem reachedLimit?_eq_none_iff :
    reachedLimit? limit state = none ↔
      ∀ most, limit = some most → state.registers.stack.length < most := by
  simp [reachedLimit?, Option.filter_eq_none_iff]

theorem reachedLimit?_eq_some_iff {most : Nat} :
    reachedLimit? limit state = some most ↔
      limit = some most ∧ most ≤ state.registers.stack.length := by
  simp [reachedLimit?, Option.filter_eq_some_iff]

/-- The two reasons to refuse a call. -/
theorem not_accepts_iff :
    ¬ Accepts limit state address ↔
      address % 2 = 1 ∨ ∃ most, limit = some most ∧ most ≤ state.registers.stack.length := by
  constructor
  · intro refused
    by_cases odd : address % 2 = 1
    · exact .inl odd
    · have even : address % 2 = 0 := by grind
      refine .inr (Classical.byContradiction fun roomy => refused ⟨even, ?_⟩)
      intro most limited
      exact Nat.lt_of_not_le fun full => roomy ⟨most, limited, full⟩
  · rintro (odd | ⟨most, limited, full⟩) accepts
    · rw [accepts.even] at odd
      exact absurd odd (by decide)
    · exact Nat.not_le_of_lt (accepts.room most limited) full

theorem enterCall_of_accepts (accepts : Accepts limit state address) :
    (enterCall limit state address).1 =
      { state with registers := state.registers.push state.registers.counter }.jump address := by
  have even : ¬ address % 2 = 1 := by
    rw [accepts.even]
    decide
  have room := reachedLimit?_eq_none_iff.mpr accepts.room
  simp only [enterCall, if_neg even, room]

theorem enterCall_of_refused (refused : ¬ Accepts limit state address) :
    (enterCall limit state address).1 = state := by
  unfold enterCall
  split
  · rfl
  · next notOdd =>
      cases reached : reachedLimit? limit state with
      | some most => rfl
      | none =>
          have even : address % 2 = 0 := by grind
          exact absurd ⟨even, reachedLimit?_eq_none_iff.mp reached⟩ refused

theorem leaveCall_of_nil (nothing : state.registers.stack = []) : (leaveCall state).1 = state := by
  simp [leaveCall, Registers.pop?, nothing]

theorem leaveCall_of_cons {older : List UInt16}
    (calls : state.registers.stack = address :: older) :
    (leaveCall state).1 =
      { state with registers := { state.registers with stack := older } }.jump address := by
  simp [leaveCall, Registers.pop?, calls]

theorem callChange_leaveCall : CallChange limit state .leave (leaveCall state).1 := by
  cases calls : state.registers.stack with
  | nil =>
      rw [leaveCall_of_nil calls]
      exact .keeps rfl
  | cons address older =>
      rw [leaveCall_of_cons calls]
      exact .leaves calls

theorem callChange_enterCall (limit : Option Nat) (state : State) (address : UInt16) :
    CallChange limit state (.call address) (enterCall limit state address).1 := by
  by_cases accepts : Accepts limit state address
  · rw [enterCall_of_accepts accepts]
    exact .enters accepts rfl
  · rw [enterCall_of_refused accepts]
    exact .keeps rfl

theorem callChange_execute (settings : Settings) (keypad : Keypad) (random : Random.Generator)
    (state : State) (instruction : Instruction) :
    CallChange settings.stackLimit state instruction
      (instruction.execute settings keypad random state).state := by
  cases calls : instruction.calls with
  | false => exact .keeps ((keeps_execute settings keypad random state instruction).stack_eq calls)
  | true =>
      cases instruction with
      | leave => exact callChange_leaveCall
      | call address => exact callChange_enterCall settings.stackLimit state address
      | _ => cases calls

end ChipEight.Instruction
