/-!
# Settings

What stays fixed while a machine runs: how fast it is meant to go, where programs
start, how deep calls may nest, how much of the past is kept, and which registers
three of the arithmetic instructions use.
-/

namespace ChipEight

inductive ShiftRoles where
  /-- The first register is read and the second receives the result. -/
  | legacy
  /-- The first register is read and receives the result. -/
  | canonical
  deriving DecidableEq, Repr

structure Settings where
  clockSpeed : UInt32 := 500
  timerFrequency : UInt32 := 60
  programStart : UInt16 := 0x200
  /-- How many calls may be in progress at once, or any number. -/
  stackLimit : Option Nat := none
  historyDepth : Nat := 0
  /-- The seed of the random bytes, or else their key comes from outside. -/
  seed : Option UInt64 := none
  shiftRoles : ShiftRoles := .legacy
  deriving DecidableEq

namespace Settings

/-- Instructions between two timer ticks, never less than one. -/
def cyclesPerTick (settings : Settings) : UInt32 :=
  max 1 (settings.clockSpeed / max 1 settings.timerFrequency)

theorem one_le_max_one (number : UInt32) : 1 ≤ (max 1 number).toNat := by
  rw [show max 1 number = if (1 : UInt32) ≤ number then number else 1 from rfl]
  split
  · next atLeast => simpa [UInt32.le_iff_toNat_le] using atLeast
  · decide

theorem one_le_cyclesPerTick (settings : Settings) : 1 ≤ settings.cyclesPerTick.toNat :=
  one_le_max_one _

end Settings

end ChipEight
