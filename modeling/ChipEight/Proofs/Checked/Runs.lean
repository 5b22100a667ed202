import ChipEight.Machine.Action
import ChipEight.Proofs.Checked.Instructions
import ChipEight.Session.Loop

/-!
# Runs, watched

A machine that is watched does what the machine does, and gives nothing once an operation has no
result. It never gives nothing: whatever the settings are and whatever is done to it, it does the
same as the machine. So no sum, product or difference leaves its type, no shift is too wide, no
place is outside its array, and no divisor is zero.
-/

namespace ChipEight

open Checked

namespace Settings

theorem max_one_ne_zero (number : UInt32) : max 1 number ≠ 0 := by
  intro zero
  have positive := one_le_max_one number
  rw [zero] at positive
  exact absurd positive (by decide)

def cyclesPerTick? (settings : Settings) : Option UInt32 := do
  let cycles ← quotient? settings.clockSpeed (max 1 settings.timerFrequency)
  return max 1 cycles

theorem cyclesPerTick?_eq (settings : Settings) :
    settings.cyclesPerTick? = some settings.cyclesPerTick := by
  rw [cyclesPerTick?, quotient?_of_ne_zero (max_one_ne_zero _)]
  rfl

end Settings

namespace Machine

/-! ### Steps and frames -/

def runWord? (machine : Machine) : Option (Reply StepOutcome) := do
  let word ← machine.state.word?
  let registers := machine.state.registers
  let fetched := Notice.fetched word registers.v registers.index registers.counter
  let kept := machine.remember
  match Instruction.ofWord? word with
  | none =>
    return ⟨.unknown word, kept.modifyState State.advance,
      #[fetched, .unknownWord word registers.counter]⟩
  | some instruction =>
    let effect ←
      instruction.execute? machine.settings machine.keypad machine.random machine.state.advance
    let outcome :=
      match effect.state.awaiting with
      | some register => .awaitingKey register
      | none => .executed word
    return ⟨outcome, { kept with state := effect.state, random := effect.random },
      #[fetched] ++ effect.notice.toArray⟩

theorem runWord?_eq (machine : Machine) : machine.runWord? = some machine.runWord := by
  simp only [runWord?, State.word?_eq, Option.bind_eq_bind, Option.bind_some, runWord]
  cases decoded : Instruction.ofWord? machine.state.word with
  | none => rfl
  | some instruction =>
      have executed := instruction.execute?_eq machine.settings machine.keypad machine.random
        machine.state.advance (Instruction.address_lt_of_ofWord? decoded)
      simp only [executed]
      rfl

def step? (machine : Machine) : Option (Reply StepOutcome) :=
  match machine.state.awaiting with
  | some register => some ⟨.awaitingKey register, machine, #[]⟩
  | none => machine.runWord?

theorem step?_eq (machine : Machine) : machine.step? = some machine.step := by
  unfold step? step
  cases machine.state.awaiting with
  | none => exact machine.runWord?_eq
  | some register => rfl

/-- Take up to `count` more steps, until a wait begins. -/
def stepOn? : Nat → Reply StepOutcome → Option (Reply StepOutcome)
  | 0, reply => some reply
  | count + 1, reply =>
    if reply.value.isWait then
      some reply
    else do
      let later ← reply.machine.step?
      stepOn? count (reply.andThen fun _ => later)

theorem stepOn?_eq (count : Nat) (reply : Reply StepOutcome) :
    stepOn? count reply = some (stepOn count reply) := by
  induction count generalizing reply with
  | zero => rfl
  | succ count ih =>
      unfold stepOn? stepOn
      split
      · rfl
      · simp only [step?_eq, Option.bind_eq_bind, Option.bind_some, ih]
        rfl

def runFrame? (machine : Machine) : Option (Reply StepOutcome) := do
  let first ← machine.step?
  let cycles ← machine.settings.cyclesPerTick?
  let reply ← stepOn? (cycles.toNat - 1) first
  return { reply with machine := reply.machine.tickTimers }

theorem runFrame?_eq (machine : Machine) : machine.runFrame? = some machine.runFrame := by
  simp only [runFrame?, step?_eq, Settings.cyclesPerTick?_eq, stepOn?_eq, Option.bind_eq_bind,
    Option.bind_some]
  rfl

/-! ### Actions -/

/-- Do something to a machine, and fail where an operation has no result. The actions that are not
listed wrap around, stop at a bound, or look up a place that need not exist. -/
def perform? (machine : Machine) (action : Action) : Option (Reply Answer) :=
  match action with
  | .step => machine.step?.map fun reply => reply.map .outcome
  | .runFrame => machine.runFrame?.map fun reply => reply.map .outcome
  | .loadProgram address program =>
    (machine.loadProgram? address program).map fun reply => reply.map .count
  | .loadRom source => (machine.loadRom? source).map fun reply => reply.map .rom
  | .reset => machine.reset?.map fun after => ⟨.nothing, after, #[]⟩
  | other => some (machine.perform other)

theorem perform?_eq (machine : Machine) (action : Action) :
    machine.perform? action = some (machine.perform action) := by
  cases action with
  | step => simp only [perform?, step?_eq]; rfl
  | runFrame => simp only [perform?, runFrame?_eq]; rfl
  | loadProgram address program => simp only [perform?, loadProgram?_eq]; rfl
  | loadRom source => simp only [perform?, loadRom?_eq]; rfl
  | reset => simp only [perform?, reset?_eq]; rfl
  | _ => rfl

def run? (machine : Machine) : List Action → Option (Reply (List Answer))
  | [] => some ⟨[], machine, #[]⟩
  | action :: later => do
    let first ← machine.perform? action
    let rest ← first.machine.run? later
    return ⟨first.value :: rest.value, rest.machine, first.notices ++ rest.notices⟩

theorem run?_eq (machine : Machine) (actions : List Action) :
    machine.run? actions = some (machine.run actions) := by
  induction actions generalizing machine with
  | nil => rfl
  | cons action later ih =>
      simp only [run?, perform?_eq, ih, Option.bind_eq_bind, Option.bind_some]
      rfl

end Machine

/-! ### Sessions -/

namespace Session.Loop

def forward? (loop : Loop) : Option (Update × Loop × Array Notice) := do
  let reply ← loop.machine.step?
  let period ← loop.machine.settings.cyclesPerTick?
  let cycles := loop.cycles + 1
  let rest ← remainder? cycles period
  let machine := if rest == 0 then reply.machine.tickTimers else reply.machine
  return (.stepped reply.value (rest == 0), { loop with machine := machine, cycles := cycles },
    reply.notices)

theorem forward?_eq (loop : Loop) : loop.forward? = some loop.forward := by
  have period : loop.machine.settings.cyclesPerTick ≠ 0 := Settings.max_one_ne_zero _
  simp only [forward?, Machine.step?_eq, Settings.cyclesPerTick?_eq, remainder?_of_ne_zero period,
    Option.bind_eq_bind, Option.bind_some]
  rfl

def update? (loop : Loop) : Option (Update × Loop × Array Notice) :=
  if loop.rewinding then some loop.backward else loop.forward?

theorem update?_eq (loop : Loop) : loop.update? = some loop.update := by
  unfold update? update
  split
  · rfl
  · exact loop.forward?_eq

def turn? (loop : Loop) (events : List Event) : Option Turn :=
  let frame := loop.machine.takeFrame
  let (ended, polled, notices) := { loop with machine := frame.machine }.poll events
  if ended then
    some ⟨frame.value, none, polled, frame.notices ++ notices⟩
  else do
    let (update, after, more) ← polled.update?
    return ⟨frame.value, some update, after, frame.notices ++ notices ++ more⟩

theorem turn?_eq (loop : Loop) (events : List Event) :
    loop.turn? events = some (loop.turn events) := by
  simp only [turn?, turn, update?_eq, Option.bind_eq_bind, Option.bind_some]
  split
  · rfl
  · rfl

def turns? (loop : Loop) : List (List Event) → Option (List Turn)
  | [] => some []
  | events :: later => do
    let turn ← loop.turn? events
    match turn.update with
    | none => return [turn]
    | some _ =>
      let rest ← turn.after.turns? later
      return turn :: rest

theorem turns?_eq (loop : Loop) (script : List (List Event)) :
    loop.turns? script = some (loop.turns script) := by
  induction script generalizing loop with
  | nil => rfl
  | cons events later ih =>
      simp only [turns?, turn?_eq, ih, Option.bind_eq_bind, Option.bind_some, turns]
      cases (loop.turn events).update with
      | none => rfl
      | some update => rfl

end Session.Loop

/-- Whatever its settings are, a machine can be switched on, and whatever is done to it then, every
operation on the way has a result; the watched machine does what the machine does. The same holds
of the turns of a session, and the flag register can be read at any time. -/
theorem arithmetic_never_fails (settings : Settings) (entropy : Random.Entropy)
    (actions : List Action) (script : List (List Session.Event)) :
    let started := Machine.start settings entropy
    let reply := started.run actions
    let session := Session.Loop.start reply.machine
    Machine.start? settings entropy = some started ∧
    started.run? actions = some reply ∧
    session.turns? script = some (session.turns script) ∧
    reply.machine.state.registers.flag? = some reply.machine.state.registers.flag := by
  intro started reply session
  exact ⟨Machine.start?_eq settings entropy, started.run?_eq actions, session.turns?_eq script,
    reply.machine.state.registers.flag?_eq⟩

end ChipEight
