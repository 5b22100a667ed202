import ChipEight.Instruction.Transfer
import ChipEight.Font
import ChipEight.Proofs.Checked.Arithmetic
import ChipEight.Proofs.Memory

/-!
# Addresses, watched

The index register has sixteen bits and an address sixty-four, so the places after the one it points
to never run out of addresses. The sums of sixteen bits are closer: a byte is added to an address of
twelve bits, a byte is multiplied by the height of a glyph, and a register's number is counted up by
one.
-/

namespace ChipEight

open Checked

namespace Registers

/-- A loop that writes one register a round, from V0 on. -/
theorem foldl_set_range (registers : Registers) (value : Nat → UInt8) (count : Nat) :
    (List.range count).foldl (fun registers number => registers.set number (value number))
        registers =
      { registers with
        v := Vector.ofFn fun x : Digit =>
          if x.val < count then value x.val else registers.read x } := by
  induction count with
  | zero =>
      have same : (Vector.ofFn fun x : Digit =>
          if x.val < 0 then value x.val else registers.read x) = registers.v := by
        ext place within : 1
        simp [read, get_of_lt]
      rw [same]
      rfl
  | succ count ih =>
      have grown : (Vector.ofFn fun x : Digit =>
            if x.val < count then value x.val else registers.read x).setIfInBounds count
              (value count) =
          Vector.ofFn fun x : Digit =>
            if x.val < count + 1 then value x.val else registers.read x := by
        ext place within : 1
        rw [Vector.getElem_setIfInBounds, Vector.getElem_ofFn, Vector.getElem_ofFn]
        by_cases newest : count = place
        · simp [newest]
        · have window : place < count + 1 ↔ place < count := by omega
          simp only [if_neg newest, window]
      rw [List.range_succ, List.foldl_append, ih, List.foldl_cons, List.foldl_nil, set, grown]

end Registers

namespace State

variable (state : State)

/-- Jump to an address moved on by V0. -/
def jumpBeyond? (address : UInt16) : Option State := do
  let target ← addWords? (state.v (Digit.ofNat 0)).toUInt16 address
  return state.jump target

/-- Point the index register to the glyph of a register. -/
def pointToGlyph? (x : Digit) : Option State := do
  let offset ← multiplyWords? (state.v x).toUInt16 Font.glyphHeight
  let address ← addWords? Font.address offset
  return state.setIndex address

/-- Write the decimal digits of a register one after the other. -/
def storeDecimal? (x : Digit) : Option State := do
  let value := state.v x
  let hundreds ← quotient? value 100
  let first ← remainder? hundreds 10
  let tens ← quotient? value 10
  let second ← remainder? tens 10
  let third ← remainder? value 10
  let secondAddress ← addSizes? state.target 1
  let thirdAddress ← addSizes? state.target 2
  let memory := state.memory.write state.target first
  let memory := memory.write secondAddress second
  return { state with memory := memory.write thirdAddress third }

/-- Move the index register past the registers up to a last one. -/
def passRegisters? (last : Digit) : Option State := do
  let count ← addWords? (UInt16.ofNat last.val) 1
  return state.setIndex (state.registers.index + count)

def storeRegister? (memory : Memory) (number : Nat) : Option Memory := do
  let address ← addSizes? state.target number
  return memory.write address (state.registers.get number)

/-- Store the registers one after the other. -/
def spill? (last : Digit) : Option State := do
  let memory ← (List.range (last.val + 1)).foldlM state.storeRegister? state.memory
  { state with memory := memory }.passRegisters? last

def loadRegister? (registers : Registers) (number : Nat) : Option Registers := do
  let address ← addSizes? state.target number
  return registers.set number (state.memory.read address)

/-- Load the registers one after the other. -/
def fill? (last : Digit) : Option State := do
  let registers ← (List.range (last.val + 1)).foldlM state.loadRegister? state.registers
  { state with registers := registers }.passRegisters? last

theorem jumpBeyond?_eq {address : UInt16} (short : address < 0x1000) :
    state.jumpBeyond? address =
      some (state.jump ((state.v (Digit.ofNat 0)).toUInt16 + address)) := by
  have offset := (state.v (Digit.ofNat 0)).toNat_lt
  have bound : address.toNat < 0x1000 := short
  have small : (state.v (Digit.ofNat 0)).toUInt16.toNat + address.toNat < wordLimit := by
    simp only [UInt8.toNat_toUInt16, wordLimit]
    omega
  rw [jumpBeyond?, addWords?_of_lt small]
  rfl

theorem pointToGlyph?_eq (x : Digit) :
    state.pointToGlyph? x =
      some (state.setIndex (Font.address + (state.v x).toUInt16 * Font.glyphHeight)) := by
  have value := (state.v x).toNat_lt
  have bounded : (state.v x).toNat * 5 < 0x10000 - 80 := by omega
  have product : (state.v x).toUInt16.toNat * Font.glyphHeight.toNat < wordLimit :=
    Nat.lt_of_lt_of_le bounded (Nat.sub_le ..)
  have offset : ((state.v x).toUInt16 * Font.glyphHeight).toNat = (state.v x).toNat * 5 := by
    rw [UInt16.toNat_mul]
    exact Nat.mod_eq_of_lt product
  have sum : Font.address.toNat + ((state.v x).toUInt16 * Font.glyphHeight).toNat < wordLimit := by
    rw [offset]
    exact Nat.add_lt_of_lt_sub' bounded
  simp only [pointToGlyph?, multiplyWords?_of_lt product, addWords?_of_lt sum,
    Option.bind_eq_bind, Option.bind_some]
  rfl

theorem storeDecimal?_eq (x : Digit) : state.storeDecimal? x = some (state.storeDecimal x) := by
  have second : addSizes? state.target 1 = some (state.target + 1) :=
    addSizes?_word _ (by decide)
  have third : addSizes? state.target 2 = some (state.target + 2) :=
    addSizes?_word _ (by decide)
  have ten : (10 : UInt8) ≠ 0 := by decide
  have hundred : (100 : UInt8) ≠ 0 := by decide
  simp only [storeDecimal?, quotient?_of_ne_zero hundred, quotient?_of_ne_zero ten,
    remainder?_of_ne_zero ten, second, third, Option.bind_eq_bind, Option.bind_some, storeDecimal,
    decimalDigits, ← Memory.writeAll_eq_load]
  rfl

theorem passRegisters?_eq (last : Digit) :
    state.passRegisters? last = some (state.passRegisters last) := by
  have bound := last.isLt
  have small : (UInt16.ofNat last.val).toNat + (1 : UInt16).toNat < wordLimit := by
    simp only [UInt16.toNat_ofNat', UInt16.reduceToNat, wordLimit]
    omega
  rw [passRegisters?, addWords?_of_lt small, passRegisters, UInt16.ofNat_add]
  rfl

/-- The numbers of the registers up to a last one are small enough to be added to an address. -/
theorem addSizes?_target (last : Digit) {number : Nat}
    (member : number ∈ List.range (last.val + 1)) :
    addSizes? state.target number = some (state.target + number) := by
  have bound := last.isLt
  rw [List.mem_range] at member
  apply addSizes?_word
  simp only [wordLimit]
  omega

theorem spill?_eq (last : Digit) : state.spill? last = some (state.spill last) := by
  have sound (number : Nat) (member : number ∈ List.range (last.val + 1)) (memory : Memory) :
      state.storeRegister? memory number =
        some (memory.write (state.target + number) (state.registers.get number)) := by
    rw [storeRegister?, state.addSizes?_target last member]
    rfl
  have block : ((List.range' 0 (last.val + 1)).map state.registers.get).toArray =
      state.registers.v.toArray.extract 0 (last.val + 1) := by
    have bound := last.isLt
    apply Array.ext
    · simp only [List.size_toArray, List.length_map, List.length_range', Array.size_extract,
        Vector.size_toArray]
      omega
    · intro place inBlock inRegisters
      have within : place < 16 := by
        simp only [Array.size_extract, Vector.size_toArray] at inRegisters
        omega
      simp [Registers.get_of_lt, within]
  rw [spill?, foldlM_eq_some sound, List.range_eq_range', Memory.foldl_write_range',
    Memory.writeAll_eq_load, block]
  exact passRegisters?_eq _ last

theorem fill?_eq (last : Digit) : state.fill? last = some (state.fill last) := by
  have sound (number : Nat) (member : number ∈ List.range (last.val + 1))
      (registers : Registers) : state.loadRegister? registers number =
        some (registers.set number (state.memory.read (state.target + number))) := by
    rw [loadRegister?, state.addSizes?_target last member]
    rfl
  have within (x : Digit) : x.val < last.val + 1 ↔ x ≤ last := Nat.lt_succ_iff
  rw [fill?, foldlM_eq_some sound, Registers.foldl_set_range]
  simp only [within]
  exact passRegisters?_eq _ last

end State

end ChipEight
