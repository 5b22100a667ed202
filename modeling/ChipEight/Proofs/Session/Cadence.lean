import ChipEight.Proofs.Session.Turns
import Mathlib.Tactic.Ring

/-!
# The cadence of the timers

The timers are meant to tick once in so many forward turns. The turns are counted by a word
that starts again at zero after its last value, and they tick whenever that word is a multiple
of the period. Zero is a multiple of every period, so where the period does not divide the
number of words a whole round of the counter brings one tick more than its turns amount to,
and the ticks after it are early.

This file counts the ticks of a session of any length and compares them with the number that
is meant.
-/

namespace ChipEight.Session

def Update.isForward : Update → Bool
  | .stepped .. => true
  | .rewound _ => false

def Update.ticks : Update → Bool
  | .stepped _ ticked => ticked
  | .rewound _ => false

def forwardCount (turns : List Turn) : Nat :=
  turns.countP fun turn => turn.update.any Update.isForward

def tickCount (turns : List Turn) : Nat :=
  turns.countP fun turn => turn.update.any Update.ticks

theorem forwardCount_cons (turn : Turn) (later : List Turn) :
    forwardCount (turn :: later) = forwardCount [turn] + forwardCount later := by
  rw [← List.singleton_append]
  exact List.countP_append

theorem tickCount_cons (turn : Turn) (later : List Turn) :
    tickCount (turn :: later) = tickCount [turn] + tickCount later := by
  rw [← List.singleton_append]
  exact List.countP_append

/-! ## Ticks of a counter -/

/-- The ticks in one round of the counter, of which the last is at zero. -/
def ticksPerRound (period : Nat) : Nat :=
  (UInt32.size - 1) / period + 1

/-- The ticks of a counter that has been brought forward so many times. -/
def ticksAfter (period forward : Nat) : Nat :=
  forward / UInt32.size * ticksPerRound period + forward % UInt32.size / period

/-- How many turns the last tick of a round is early. -/
def shortfall (period : Nat) : Nat :=
  (period - UInt32.size % period) % period

@[simp]
theorem ticksAfter_zero (period : Nat) : ticksAfter period 0 = 0 := by
  simp [ticksAfter]

theorem ticksAfter_succ (period forward : Nat) :
    ticksAfter period (forward + 1) =
      ticksAfter period forward + if (forward + 1) % UInt32.size % period = 0 then 1 else 0 := by
  have positive : 0 < UInt32.size := by decide
  by_cases last : (forward + 1) % UInt32.size = 0
  · have ends : forward % UInt32.size = UInt32.size - 1 := by
      simp only [UInt32.size] at last ⊢
      omega
    simp only [ticksAfter, ticksPerRound, Nat.succ_div_of_mod_eq_zero last, last, ends,
      Nat.zero_mod, Nat.zero_div, if_true]
    ring
  · have next : (forward + 1) % UInt32.size = forward % UInt32.size + 1 := by
      simp only [UInt32.size] at last ⊢
      omega
    simp only [ticksAfter, Nat.succ_div_of_mod_ne_zero last, next, Nat.succ_div,
      Nat.dvd_iff_mod_eq_zero]
    omega

theorem ticksPerRound_mul {period : Nat} (positive : 0 < period) :
    ticksPerRound period * period = UInt32.size + shortfall period := by
  have divided := Nat.div_add_mod UInt32.size period
  have small := Nat.mod_lt UInt32.size positive
  have counts : UInt32.size / period =
      (UInt32.size - 1) / period + if period ∣ UInt32.size then 1 else 0 :=
    Nat.succ_div
  rw [Nat.mul_comm, ticksPerRound, Nat.mul_succ]
  by_cases divides : period ∣ UInt32.size
  · have whole := Nat.mod_eq_zero_of_dvd divides
    rw [if_pos divides] at counts
    rw [counts, Nat.mul_succ, whole] at divided
    rw [shortfall, whole, Nat.sub_zero, Nat.mod_self]
    exact divided
  · have rest : 0 < UInt32.size % period := Nat.emod_pos_of_not_dvd divides
    rw [if_neg divides, Nat.add_zero] at counts
    rw [counts] at divided
    rw [shortfall, Nat.mod_eq_of_lt (by omega)]
    omega

theorem shortfall_eq_zero_iff {period : Nat} (positive : 0 < period) :
    shortfall period = 0 ↔ period ∣ UInt32.size := by
  have small := Nat.mod_lt UInt32.size positive
  rw [Nat.dvd_iff_mod_eq_zero]
  unfold shortfall
  constructor
  · intro none
    by_contra rest
    rw [Nat.mod_eq_of_lt (by omega)] at none
    omega
  · intro divides
    rw [divides, Nat.sub_zero, Nat.mod_self]

theorem ticksAfter_eq_div_iff {period : Nat} (positive : 0 < period) (forward : Nat) :
    ticksAfter period forward = forward / period ↔
      forward / UInt32.size * shortfall period ≤ forward % UInt32.size % period := by
  have rounds := Nat.div_add_mod forward UInt32.size
  have rest := Nat.div_add_mod (forward % UInt32.size) period
  have small := Nat.mod_lt (forward % UInt32.size) positive
  have amount : ticksAfter period forward * period + forward % UInt32.size % period =
      forward + forward / UInt32.size * shortfall period := by
    calc
      _ = forward / UInt32.size * (ticksPerRound period * period) +
          (period * (forward % UInt32.size / period) + forward % UInt32.size % period) := by
        unfold ticksAfter
        ring
      _ = UInt32.size * (forward / UInt32.size) + forward % UInt32.size +
          forward / UInt32.size * shortfall period := by
        rw [ticksPerRound_mul positive, rest]
        ring
      _ = forward + forward / UInt32.size * shortfall period := by rw [rounds]
  rw [eq_comm, Nat.div_eq_iff positive]
  omega

/-! ## Ticks of a session -/

/-- A session that has been brought forward so many times, as its counter shows it. -/
structure Loop.Counts (loop : Loop) (period taken : Nat) : Prop where
  period_eq : loop.machine.settings.cyclesPerTick.toNat = period
  cycles_eq : loop.cycles.toNat = taken % UInt32.size

namespace Loop

theorem counts_start (machine : Machine) :
    (start machine).Counts machine.settings.cyclesPerTick.toNat 0 :=
  ⟨rfl, rfl⟩

variable {loop : Loop} {period taken : Nat}

theorem Counts.polled {after : Loop} (counts : loop.Counts period taken)
    (polled : loop.takeFrame.Polled after) : after.Counts period taken where
  period_eq := by
    rw [polled.edited.settings_eq]
    exact (congrArg (·.cyclesPerTick.toNat) loop.machine.settings_takeFrame).trans
      counts.period_eq
  cycles_eq := by
    rw [polled.cycles_eq]
    exact counts.cycles_eq

theorem Counts.forward (counts : loop.Counts period taken) :
    loop.forward.2.1.Counts period (taken + 1) where
  period_eq := by
    rw [loop.edited_forward.settings_eq, Machine.settings_step]
    exact counts.period_eq
  cycles_eq := by
    have next : (loop.cycles + 1).toNat = (loop.cycles.toNat + 1) % UInt32.size :=
      UInt32.toNat_add loop.cycles 1
    exact next.trans (by rw [counts.cycles_eq, Nat.mod_add_mod])

theorem Counts.ticks_forward (counts : loop.Counts period taken) :
    loop.forward.1.ticks = ((taken + 1) % UInt32.size % period == 0) := by
  have next := counts.forward.cycles_eq
  change (loop.cycles + 1).toNat = _ at next
  change ((loop.cycles + 1) % loop.machine.settings.cyclesPerTick == 0) = _
  rw [← next, ← counts.period_eq, ← UInt32.toNat_mod]
  exact beq_eq_beq.mpr UInt32.toNat_inj.symm

theorem Counts.backward (counts : loop.Counts period taken) :
    loop.backward.2.1.Counts period taken where
  period_eq := by
    have same : loop.backward.2.1.machine.settings = loop.machine.settings :=
      loop.machine.settings_rewind
    rw [same]
    exact counts.period_eq
  cycles_eq := counts.cycles_eq

theorem Counts.turn (counts : loop.Counts period taken) (events : List Event) :
    (loop.turn events).after.Counts period (taken + forwardCount [loop.turn events]) ∧
      ticksAfter period (taken + forwardCount [loop.turn events]) =
        ticksAfter period taken + tickCount [loop.turn events] := by
  have turned := loop.turned_turn events
  generalize loop.turn events = turn at turned ⊢
  cases turned with
  | ends _ polled => exact ⟨counts.polled polled, rfl⟩
  | forward _ polled =>
      have polledCounts := counts.polled polled
      refine ⟨polledCounts.forward, ?_⟩
      change ticksAfter period (taken + 1) = _
      rw [ticksAfter_succ]
      simp [tickCount, polledCounts.ticks_forward]
  | backward _ polled => exact ⟨(counts.polled polled).backward, rfl⟩

theorem Counts.turns (counts : loop.Counts period taken) (script : List (List Event)) :
    ticksAfter period (taken + forwardCount (loop.turns script)) =
      ticksAfter period taken + tickCount (loop.turns script) := by
  induction script generalizing loop taken with
  | nil => rfl
  | cons events later ih =>
      obtain ⟨after, ticked⟩ := counts.turn events
      by_cases ended : (loop.turn events).update = none
      · rw [loop.turns_cons_of_ended events later ended]
        exact ticked
      · rw [loop.turns_cons_of_updated events later ended, forwardCount_cons, tickCount_cons,
          ← Nat.add_assoc, ih after, ticked, Nat.add_assoc]

theorem tickCount_turns_start (machine : Machine) (script : List (List Event)) :
    tickCount ((start machine).turns script) =
      ticksAfter machine.settings.cyclesPerTick.toNat
        (forwardCount ((start machine).turns script)) := by
  have ticked := (counts_start machine).turns script
  rw [Nat.zero_add, ticksAfter_zero, Nat.zero_add] at ticked
  exact ticked.symm

/-- Without events every turn brings the machine forward. -/
theorem forwardCount_turns_replicate (loop : Loop) (held : loop.rewinding = false)
    (count : Nat) : forwardCount (loop.turns (List.replicate count [])) = count := by
  induction count generalizing loop with
  | zero => rfl
  | succ count ih =>
      have turn_eq : (loop.turn []).update = some loop.takeFrame.forward.1 ∧
          (loop.turn []).after = loop.takeFrame.forward.2.1 := by
        simp [Loop.turn, poll, update, held, takeFrame]
      have heldAfter : (loop.turn []).after.rewinding = false := by
        rw [turn_eq.2]
        exact held
      have stepped : forwardCount [loop.turn []] = 1 := by
        simp [forwardCount, turn_eq.1, Loop.forward, Update.isForward]
      rw [List.replicate_succ, turns_cons_of_updated loop [] _ (by simp [turn_eq.1]),
        forwardCount_cons, stepped, ih _ heldAfter, Nat.add_comm]

end Loop

/-- The timers keep to their ratio until the counter has gone round often enough for the ticks
that come early to add up. They keep to it for good only if the period divides the number of
values that the counter has. -/
theorem ticks_keep_ratio_iff (machine : Machine) :
    let period := machine.settings.cyclesPerTick.toNat
    (∀ script : List (List Event),
      let turns := (Loop.start machine).turns script
      tickCount turns = ticksAfter period (forwardCount turns) ∧
        (tickCount turns = forwardCount turns / period ↔
          forwardCount turns / UInt32.size * shortfall period ≤
            forwardCount turns % UInt32.size % period)) ∧
    ((∀ script : List (List Event),
      let turns := (Loop.start machine).turns script
      tickCount turns = forwardCount turns / period) ↔ period ∣ UInt32.size) := by
  intro period
  have positive : 0 < period := machine.settings.one_le_cyclesPerTick
  have keepsIff (script : List (List Event)) :=
    ticksAfter_eq_div_iff positive (forwardCount ((Loop.start machine).turns script))
  simp only [Loop.tickCount_turns_start]
  refine ⟨fun script => ⟨rfl, keepsIff script⟩, ?_, ?_⟩
  · intro keeps
    have round := keeps (List.replicate UInt32.size [])
    have turned := (Loop.start machine).forwardCount_turns_replicate rfl UInt32.size
    rw [keepsIff, turned] at round
    apply (shortfall_eq_zero_iff positive).mp
    simpa using round
  · intro divides script
    have none := (shortfall_eq_zero_iff positive).mpr divides
    rw [keepsIff, none, Nat.mul_zero]
    exact Nat.zero_le _

/-- A session without events whose timers should tick once in 4294967295 turns. They tick
then, and once more in the next turn. -/
theorem ticks_twice_in_one_round :
    let settings : Settings := { clockSpeed := 4294967295, timerFrequency := 1 }
    let reply := (Machine.start settings 0).loadRom
      (.complete #[0xA0, 0x50, 0x60, 0x02, 0xF0, 0x15, 0xF1, 0x07,
        0x31, 0x00, 0x12, 0x06, 0xD0, 0x05, 0x12, 0x0E])
    let turns := (Loop.start reply.machine).turns (List.replicate UInt32.size [])
    reply.value = .ok 16 ∧ forwardCount turns = UInt32.size ∧ tickCount turns = 2 ∧
      forwardCount turns / reply.machine.settings.cyclesPerTick.toNat = 1 := by
  intro settings reply turns
  have period : reply.machine.settings.cyclesPerTick.toNat = 4294967295 := by
    rw [(Machine.edited_loadRom _ _).settings_eq]
    decide
  have forward : forwardCount turns = UInt32.size :=
    Loop.forwardCount_turns_replicate _ rfl UInt32.size
  have ticks : tickCount turns = ticksAfter 4294967295 UInt32.size := by
    rw [← period, ← forward]
    exact Loop.tickCount_turns_start reply.machine _
  refine ⟨rfl, forward, ticks.trans (by decide), ?_⟩
  rw [forward, period]
  rfl

end ChipEight.Session
