import ChipEight.Proofs.Instruction.Patterns
import ChipEight.Proofs.Machine.Obeying

/-!
# Arithmetic on registers that coincide

The instructions of family 8 that calculate write a result to one of their two registers and a
flag to VF. Their operands may be the same register, and each may be VF itself. Both operands are
read before anything is written, so it only matters which of the two writes comes last: some
instructions keep the flag where both go to VF, and others keep the result.
-/

namespace ChipEight

namespace Registers

/-- A result goes to a register and a flag to VF. If the register is VF, the flag is kept. -/
structure FlagKept (x : Digit) (result flag : Nat) (before after : Registers) : Prop where
  flag_eq : (after.read flagRegister).toNat = flag
  result_eq : x ≠ flagRegister → (after.read x).toNat = result
  read_eq : ∀ other, other ≠ x → other ≠ flagRegister → after.read other = before.read other

/-- A result goes to a register and a flag to VF. If the register is VF, the result is kept. -/
structure ResultKept (x : Digit) (result flag : Nat) (before after : Registers) : Prop where
  result_eq : (after.read x).toNat = result
  flag_eq : x ≠ flagRegister → (after.read flagRegister).toNat = flag
  read_eq : ∀ other, other ≠ x → other ≠ flagRegister → after.read other = before.read other

variable (registers : Registers) (x y : Digit) (value : UInt8) (raised : Bool)

theorem read_setFlag (other : Digit) :
    (registers.setFlag raised).read other =
      if other = flagRegister then (if raised then 1 else 0) else registers.read other :=
  read_write ..

theorem toNat_flag : (if raised then 1 else 0 : UInt8).toNat = raised.toNat := by
  cases raised <;> rfl

theorem flagKept_write_setFlag :
    FlagKept x value.toNat raised.toNat registers ((registers.write x value).setFlag raised) where
  flag_eq := by rw [read_setFlag, if_pos rfl, toNat_flag]
  result_eq := by
    intro apart
    rw [read_setFlag, if_neg apart, read_write, if_pos rfl]
  read_eq := by
    intro other notX notFlag
    rw [read_setFlag, if_neg notFlag, read_write, if_neg notX]

theorem resultKept_setFlag_write :
    ResultKept x value.toNat raised.toNat registers ((registers.setFlag raised).write x value) where
  result_eq := by rw [read_write, if_pos rfl]
  flag_eq := by
    intro apart
    rw [read_write, if_neg apart.symm, read_setFlag, if_pos rfl, toNat_flag]
  read_eq := by
    intro other notX notFlag
    rw [read_write, if_neg notX, read_setFlag, if_neg notFlag]

/-! ## Results and flags as numbers -/

theorem toNat_difference (first second : UInt8) :
    (first - second).toNat = (256 + first.toNat - second.toNat) % 256 := by
  have bound := second.toNat_lt
  rw [UInt8.toNat_sub]
  omega

theorem toNat_decide (test : Prop) [Decidable test] :
    (decide test).toNat = if test then 1 else 0 := by
  by_cases holds : test <;> simp [holds]

theorem toNat_lowBit (byte : UInt8) : (lowBit byte).toNat = byte.toNat % 2 := by
  have odd : byte % 2 = 1 ↔ byte.toNat % 2 = 1 := by
    rw [← UInt8.toNat_inj, UInt8.toNat_mod]
    rfl
  simp only [lowBit, toNat_decide, odd]
  split <;> omega

theorem toNat_highBit (byte : UInt8) : (highBit byte).toNat = byte.toNat / 128 := by
  have bound := byte.toNat_lt
  have high : 128 ≤ byte ↔ 128 ≤ byte.toNat := UInt8.le_iff_toNat_le
  simp only [highBit, toNat_decide, high]
  split <;> omega

/-! ## The instructions -/

theorem flagKept_add :
    let a := (registers.read x).toNat
    let b := (registers.read y).toNat
    FlagKept x ((a + b) % 256) (if 255 < a + b then 1 else 0) registers (registers.add x y) := by
  intro a b
  rw [← toNat_decide (255 < a + b)]
  exact registers.flagKept_write_setFlag x (registers.read x + registers.read y) _

/-- The flag is written first, and the result only if it does not go to VF. -/
theorem flagKept_subtract :
    let a := (registers.read x).toNat
    let b := (registers.read y).toNat
    FlagKept x ((256 + a - b) % 256) (if b ≤ a then 1 else 0) registers
      (registers.subtract x y) := by
  intro a b
  rw [← toNat_decide (b ≤ a), ← toNat_difference, subtract]
  by_cases same : x = flagRegister
  · rw [if_pos same]
    refine ⟨?_, fun apart => absurd same apart, fun other _ notFlag => ?_⟩
    · rw [read_setFlag, if_pos rfl, toNat_flag]
      rfl
    · rw [read_setFlag, if_neg notFlag]
  · rw [if_neg same]
    obtain ⟨result, flag, others⟩ := registers.resultKept_setFlag_write x
      (registers.read x - registers.read y) (registers.read y ≤ registers.read x)
    exact ⟨flag same, fun _ => result, others⟩

theorem resultKept_shiftRight :
    let a := (registers.read x).toNat
    ResultKept y (a / 2) (a % 2) registers (registers.shiftRight .legacy x y) := by
  intro a
  rw [← toNat_lowBit]
  exact registers.resultKept_setFlag_write y (registers.read x / 2) _

theorem flagKept_shiftRight :
    let a := (registers.read x).toNat
    FlagKept x (a / 2) (a % 2) registers (registers.shiftRight .canonical x y) := by
  intro a
  rw [← toNat_lowBit]
  exact registers.flagKept_write_setFlag x (registers.read x / 2) _

theorem resultKept_subtractReversed :
    let a := (registers.read x).toNat
    let b := (registers.read y).toNat
    ResultKept y ((256 + a - b) % 256) (if a ≤ b then 1 else 0) registers
      (registers.subtractReversed .legacy x y) := by
  intro a b
  rw [← toNat_decide (a ≤ b), ← toNat_difference]
  exact registers.resultKept_setFlag_write y (registers.read x - registers.read y) _

theorem flagKept_subtractReversed :
    let a := (registers.read x).toNat
    let b := (registers.read y).toNat
    FlagKept x ((256 + b - a) % 256) (if a ≤ b then 1 else 0) registers
      (registers.subtractReversed .canonical x y) := by
  intro a b
  rw [← toNat_decide (a ≤ b), ← toNat_difference]
  exact registers.flagKept_write_setFlag x (registers.read y - registers.read x) _

theorem resultKept_shiftLeft :
    let a := (registers.read x).toNat
    ResultKept y (2 * a % 256) (a % 2) registers (registers.shiftLeft .legacy x y) := by
  intro a
  rw [← toNat_lowBit, Nat.mul_comm]
  exact registers.resultKept_setFlag_write y (registers.read x * 2) _

theorem flagKept_shiftLeft :
    let a := (registers.read x).toNat
    FlagKept x (2 * a % 256) (a / 128) registers (registers.shiftLeft .canonical x y) := by
  intro a
  rw [← toNat_highBit, Nat.mul_comm]
  exact registers.flagKept_write_setFlag x (registers.read x * 2) _

end Registers

/-- Arithmetic is exact however the registers coincide, where `a` and `b` are what the two
registers hold before. The sum, the difference and the three canonical instructions keep the flag
if their result goes to VF as well, and the three legacy instructions keep the result. -/
theorem arithmetic_is_exact (machine : Machine) (word : UInt16) :
    let x := Word.x word
    let y := Word.y word
    let before := machine.state.registers
    let after := (machine.obey word).state.registers
    let a := (before.read x).toNat
    let b := (before.read y).toNat
    let keepsFlag (result flag : Nat) := Registers.FlagKept x result flag before after
    let keepsResult (result flag : Nat) := Registers.ResultKept y result flag before after
    ((Pattern.ofLast 0x8 0x4).Matches word →
      keepsFlag ((a + b) % 256) (if 255 < a + b then 1 else 0)) ∧
    ((Pattern.ofLast 0x8 0x5).Matches word →
      keepsFlag ((256 + a - b) % 256) (if b ≤ a then 1 else 0)) ∧
    (machine.settings.shiftRoles = .legacy →
      ((Pattern.ofLast 0x8 0x6).Matches word → keepsResult (a / 2) (a % 2)) ∧
      ((Pattern.ofLast 0x8 0x7).Matches word →
        keepsResult ((256 + a - b) % 256) (if a ≤ b then 1 else 0)) ∧
      ((Pattern.ofLast 0x8 0xE).Matches word → keepsResult (2 * a % 256) (a % 2))) ∧
    (machine.settings.shiftRoles = .canonical →
      ((Pattern.ofLast 0x8 0x6).Matches word → keepsFlag (a / 2) (a % 2)) ∧
      ((Pattern.ofLast 0x8 0x7).Matches word →
        keepsFlag ((256 + b - a) % 256) (if a ≤ b then 1 else 0)) ∧
      ((Pattern.ofLast 0x8 0xE).Matches word → keepsFlag (2 * a % 256) (a / 128))) ∧
    ((Pattern.ofFamily 0x7).Matches word →
      (after.read x).toNat = (a + (Word.byte word).toNat) % 256 ∧
      ∀ other, other ≠ x → after.read other = before.read other) := by
  intro x y before after a b keepsFlag keepsResult
  have reached {instruction : Instruction} (stands : Word.StandsFor word instruction) :
      after = (instruction.execute machine.settings machine.keypad machine.random
        machine.state).state.registers :=
    congrArg State.registers (Machine.state_obey_of_standsFor stands)
  simp only [Pattern.matches_ofLast_iff, Pattern.matches_ofFamily_iff, keepsFlag, keepsResult]
  refine ⟨?sum, ?difference, ?legacy, ?canonical, ?increase⟩
  case sum =>
    rintro ⟨family, last⟩
    rw [reached (.add family last)]
    exact before.flagKept_add x y
  case difference =>
    rintro ⟨family, last⟩
    rw [reached (.subtract family last)]
    exact before.flagKept_subtract x y
  case legacy =>
    intro roles
    refine ⟨?_, ?_, ?_⟩
    · rintro ⟨family, last⟩
      rw [reached (.shiftRight family last)]
      simp only [Instruction.execute, roles]
      exact before.resultKept_shiftRight x y
    · rintro ⟨family, last⟩
      rw [reached (.subtractReversed family last)]
      simp only [Instruction.execute, roles]
      exact before.resultKept_subtractReversed x y
    · rintro ⟨family, last⟩
      rw [reached (.shiftLeft family last)]
      simp only [Instruction.execute, roles]
      exact before.resultKept_shiftLeft x y
  case canonical =>
    intro roles
    refine ⟨?_, ?_, ?_⟩
    · rintro ⟨family, last⟩
      rw [reached (.shiftRight family last)]
      simp only [Instruction.execute, roles]
      exact before.flagKept_shiftRight x y
    · rintro ⟨family, last⟩
      rw [reached (.subtractReversed family last)]
      simp only [Instruction.execute, roles]
      exact before.flagKept_subtractReversed x y
    · rintro ⟨family, last⟩
      rw [reached (.shiftLeft family last)]
      simp only [Instruction.execute, roles]
      exact before.flagKept_shiftLeft x y
  case increase =>
    intro family
    rw [reached (.increase family)]
    refine ⟨?_, fun other apart => ?_⟩
    · exact (congrArg UInt8.toNat ((before.read_write x x _).trans (if_pos rfl))).trans
        (UInt8.toNat_add ..)
    · exact (before.read_write x other _).trans (if_neg apart)

end ChipEight
