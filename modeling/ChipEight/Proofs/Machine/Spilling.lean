import ChipEight.Machine.Action
import ChipEight.Proofs.Instruction.Registers
import ChipEight.Proofs.Instruction.Words
import ChipEight.Proofs.Machine.Obeying

/-!
# Storing registers and loading them back

FX55 stores the registers from V0 to VX from the index register on, and FX65 loads them from there.
Both go through the same addresses, which are not wrapped around: a place past the end of memory
loses what is stored there and loads as zero. So each instruction undoes the other as far as
memory reaches. The index register moves past the last place, and it does wrap around.
-/

namespace ChipEight

namespace State

variable (state : State) (last : Digit)

/-- What memory holds after registers were stored. -/
theorem read_spill (address : Nat) :
    (state.spill last).memory.read address =
      if state.target ≤ address ∧ address ≤ state.target + last.val ∧ address < Memory.size then
        state.registers.get (address - state.target)
      else state.memory.read address := by
  have bound := last.isLt
  change (state.memory.load state.target _).read address = _
  have size : (state.registers.v.toArray.extract 0 (last.val + 1)).size = last.val + 1 := by
    simp only [Array.size_extract, Vector.size_toArray]
    omega
  have window : state.target ≤ address ∧
        address < state.target + Memory.room state.target (last.val + 1) ↔
      state.target ≤ address ∧ address ≤ state.target + last.val ∧ address < Memory.size := by
    simp only [Memory.room]
    omega
  rw [Memory.read_load, size]
  simp only [window]
  split
  · next inside =>
      have place : address - state.target < min (last.val + 1) 16 - 0 := by omega
      rw [Registers.get, Array.getElem?_extract, Vector.size_toArray, if_pos place, Nat.zero_add,
        Vector.getElem?_toArray]
  · rfl

theorem toNat_index_passRegisters :
    (state.passRegisters last).registers.index.toNat = (state.target + last.val + 1) % 65536 := by
  have bound := last.isLt
  change (state.registers.index + UInt16.ofNat (last.val + 1)).toNat = _
  rw [UInt16.toNat_add, UInt16.toNat_ofNat']
  simp only [target]
  omega

theorem toNat_index_spill :
    (state.spill last).registers.index.toNat = (state.target + last.val + 1) % 65536 := by
  simp only [spill, toNat_index_passRegisters, target]

theorem toNat_index_fill :
    (state.fill last).registers.index.toNat = (state.target + last.val + 1) % 65536 := by
  simp only [fill, toNat_index_passRegisters, target]

theorem memory_fill : (state.fill last).memory = state.memory := by
  simp only [fill, passRegisters, setIndex]

theorem v_setV (x : Digit) (value : UInt8) (register : Digit) :
    (state.setV x value).v register = if register = x then value else state.v register :=
  Registers.read_write ..

theorem index_setIndex (address : UInt16) :
    (state.setIndex address).registers.index = address :=
  rfl

theorem v_setIndex (address : UInt16) (register : Digit) :
    (state.setIndex address).v register = state.v register :=
  rfl

variable {state : State} {last : Digit}

/-- Registers that are loaded from where they were stored come back as far as memory reaches. -/
theorem v_fill_of_spilled {between : State} (memory : between.memory = (state.spill last).memory)
    (index : between.registers.index = state.registers.index) {register : Digit}
    (loaded : register ≤ last) :
    (between.fill last).v register =
      if state.target + register.val < Memory.size then state.v register else 0 := by
  have inWindow : state.target + register.val ≤ state.target + last.val :=
    Nat.add_le_add_left loaded _
  have same : between.target = state.target := congrArg UInt16.toNat index
  change (between.fill last).registers.read register = _
  rw [Instruction.read_fill, if_pos loaded, memory, read_spill, same]
  by_cases reached : state.target + register.val < Memory.size
  · rw [if_pos ⟨Nat.le_add_right .., inWindow, reached⟩, if_pos reached, Nat.add_sub_cancel_left]
    rfl
  · rw [if_neg (fun window => reached window.2.2), if_neg reached]
    exact state.memory.read_of_size_le (Nat.le_of_not_lt reached)

/-- Storing registers to where they were loaded from changes nothing in memory. -/
theorem memory_spill_of_filled {between : State} (memory : between.memory = state.memory)
    (index : between.registers.index = state.registers.index)
    (v : ∀ register, register ≤ last → between.v register = (state.fill last).v register) :
    (between.spill last).memory = state.memory := by
  have same : between.target = state.target := congrArg UInt16.toNat index
  apply Memory.ext_read
  intro address _
  rw [read_spill, same, memory]
  split
  · next window =>
      have within : address - state.target ≤ last.val := by omega
      let register : Digit := ⟨address - state.target, by omega⟩
      calc between.registers.get (address - state.target)
          = between.v register := rfl
        _ = (state.fill last).v register := v register within
        _ = state.memory.read (state.target + register.val) :=
            (Instruction.read_fill state last register).trans (if_pos within)
        _ = state.memory.read address := by
            congr 1
            change state.target + (address - state.target) = address
            omega
  · rfl

end State

/-- Storing the registers up to a last one and loading them back are inverse as far as memory
reaches, whatever the registers held in between, and loading and then storing leaves memory as it
was. The addresses are not wrapped around, but the index register is. -/
theorem spill_and_fill_are_inverse (machine : Machine) (last : Digit) :
    let spillWord := Word.ofByte 0xF last 0x55
    let fillWord := Word.ofByte 0xF last 0x65
    let before := machine.state
    let first := before.registers.index.toNat
    let spilled := (machine.obey spillWord).state
    let filled := (machine.obey fillWord).state
    (∀ between : Machine,
      between.state.memory = spilled.memory →
      between.state.registers.index = before.registers.index →
      (∀ register, last < register → between.state.v register = spilled.v register) →
      let restored := (between.obey fillWord).state
      (∀ register, register ≤ last →
        restored.v register =
          if first + register.val < Memory.size then before.v register else 0) ∧
      (∀ register, last < register → restored.v register = before.v register) ∧
      restored.registers.index.toNat = (first + last.val + 1) % 65536) ∧
    (∀ between : Machine,
      between.state = filled.setIndex before.registers.index →
      let stored := (between.obey spillWord).state
      stored.memory = before.memory ∧
      stored.registers.index.toNat = (first + last.val + 1) % 65536) ∧
    (spilled.registers.index.toNat = (first + last.val + 1) % 65536 ∧
      filled.registers.index.toNat = (first + last.val + 1) % 65536) ∧
    (∀ address, spilled.memory.read address =
      if first ≤ address ∧ address ≤ first + last.val ∧ address < Memory.size then
        before.registers.get (address - first)
      else before.memory.read address) ∧
    ∀ register, filled.v register =
      if register ≤ last then before.memory.read (first + register.val)
      else before.v register := by
  intro spillWord fillWord before first spilled filled
  have spills (any : Machine) : (any.obey spillWord).state = any.state.spill last := by
    change (any.obey (Instruction.spill last).toWord).state = _
    rw [any.obey_toWord rfl]
    simp only [Instruction.execute]
  have fills (any : Machine) : (any.obey fillWord).state = any.state.fill last := by
    change (any.obey (Instruction.fill last).toWord).state = _
    rw [any.obey_toWord rfl]
    simp only [Instruction.execute]
  refine ⟨?storedFirst, ?loadedFirst, ?indices, ?stored, ?loaded⟩
  case storedFirst =>
    intro between memory index kept restored
    have same : between.state.target = first := congrArg UInt16.toNat index
    rw [show spilled = before.spill last from spills machine] at memory kept
    rw [show restored = between.state.fill last from fills between]
    refine ⟨fun register within => State.v_fill_of_spilled memory index within, ?_, ?_⟩
    · intro register beyond
      exact ((Instruction.read_fill ..).trans (if_neg (Nat.not_le_of_lt beyond))).trans
        (kept register beyond)
    · rw [State.toNat_index_fill, same]
  case loadedFirst =>
    intro between set stored
    rw [show filled = before.fill last from fills machine] at set
    have memory : between.state.memory = before.memory :=
      (congrArg State.memory set).trans (before.memory_fill last)
    have index : between.state.registers.index = before.registers.index := by
      rw [set, State.index_setIndex]
    have same : between.state.target = first := congrArg UInt16.toNat index
    rw [show stored = between.state.spill last from spills between]
    refine ⟨State.memory_spill_of_filled memory index fun register _ => ?_, ?_⟩
    · rw [set, State.v_setIndex]
    · rw [State.toNat_index_spill, same]
  case indices =>
    rw [show spilled = before.spill last from spills machine,
      show filled = before.fill last from fills machine]
    exact ⟨State.toNat_index_spill .., State.toNat_index_fill ..⟩
  case stored =>
    rw [show spilled = before.spill last from spills machine]
    exact before.read_spill last
  case loaded =>
    rw [show filled = before.fill last from fills machine]
    exact Instruction.read_fill before last

/-- A machine that is about to store three registers where memory has room for two of them. -/
def beforeSpill : Machine :=
  ((Machine.start {} 0).run
    [.setIndex 0xFFE, .setRegister 0 7, .setRegister 1 8, .setRegister 2 9]).machine

/-- The machine that has stored them, with the three registers cleared and the index register set
back. -/
def clearedAfterSpill : Machine :=
  (beforeSpill.obey (Word.ofByte 0xF (Digit.ofNat 2) 0x55)).modifyState fun state =>
    (((state.setV (Digit.ofNat 0) 0).setV (Digit.ofNat 1) 0).setV (Digit.ofNat 2) 0).setIndex 0xFFE

/-- Two of the registers come back, the third does not, and the index register is past them. -/
theorem two_registers_restored :
    let restored := (clearedAfterSpill.obey (Word.ofByte 0xF (Digit.ofNat 2) 0x65)).state
    clearedAfterSpill.state.v (Digit.ofNat 0) = 0 ∧ clearedAfterSpill.state.v (Digit.ofNat 1) = 0 ∧
      restored.v (Digit.ofNat 0) = 7 ∧ restored.v (Digit.ofNat 1) = 8 ∧
      restored.v (Digit.ofNat 2) = 0 ∧ restored.registers.index.toNat = 0x1001 := by
  have others (register : Digit) (above : Digit.ofNat 2 < register) :
      clearedAfterSpill.state.v register =
        (beforeSpill.obey (Word.ofByte 0xF (Digit.ofNat 2) 0x55)).state.v register := by
    have apart (low : Digit) (within : low ≤ Digit.ofNat 2) : register ≠ low := by
      rintro rfl
      exact absurd above (Nat.not_lt_of_le within)
    change ((((_ : State).setV _ 0).setV _ 0).setV _ 0).v register = _
    rw [State.v_setV, if_neg (apart _ (by decide)), State.v_setV, if_neg (apart _ (by decide)),
      State.v_setV, if_neg (apart _ (by decide))]
  obtain ⟨loaded, -, index⟩ := (spill_and_fill_are_inverse beforeSpill (Digit.ofNat 2)).1
    clearedAfterSpill rfl rfl others
  refine ⟨by decide, by decide, ?_, ?_, ?_, index⟩
  · exact (loaded (Digit.ofNat 0) (by decide)).trans (by decide)
  · exact (loaded (Digit.ofNat 1) (by decide)).trans (by decide)
  · exact (loaded (Digit.ofNat 2) (by decide)).trans (by decide)

end ChipEight
