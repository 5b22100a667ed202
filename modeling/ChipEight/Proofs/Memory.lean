import ChipEight.Memory

/-!
# Blocks as single bytes

A block is copied into memory as a whole. Writing its bytes one after the other, each to the next
address, leads to the same memory: what finds no room is dropped in both ways.
-/

namespace ChipEight.Memory

/-- Write bytes to an address and those after it, one at a time. -/
def writeAll (memory : Memory) (address : Nat) : List UInt8 → Memory
  | [] => memory
  | byte :: later => (memory.write address byte).writeAll (address + 1) later

theorem read_writeAll (memory : Memory) (address : Nat) (bytes : List UInt8) (other : Nat) :
    (memory.writeAll address bytes).read other =
      if address ≤ other ∧ other < address + bytes.length ∧ other < size then
        bytes[other - address]?.getD 0
      else memory.read other := by
  induction bytes generalizing memory address with
  | nil =>
      have outside : ¬ (address ≤ other ∧ other < address + 0 ∧ other < size) := by omega
      rw [writeAll, List.length_nil, if_neg outside]
  | cons byte later ih =>
      rw [writeAll, ih, read_write, List.length_cons]
      by_cases first : other = address
      · subst first
        have notLater :
            ¬ (other + 1 ≤ other ∧ other < other + 1 + later.length ∧ other < size) := by
          omega
        rw [if_neg notLater]
        by_cases within : other < size
        · simp [within]
        · simp [within]
      · have window : address ≤ other ∧ other < address + (later.length + 1) ∧ other < size ↔
            address + 1 ≤ other ∧ other < address + 1 + later.length ∧ other < size := by
          omega
        simp only [window, first, false_and, if_false]
        split
        · next inside =>
            have place : other - address = (other - (address + 1)) + 1 := by omega
            rw [place, List.getElem?_cons_succ]
        · rfl

theorem writeAll_eq_load (memory : Memory) (address : Nat) (bytes : List UInt8) :
    memory.writeAll address bytes = memory.load address bytes.toArray := by
  apply ext_read
  intro other within
  rw [read_writeAll, read_load, List.size_toArray, List.getElem?_toArray]
  have window : address ≤ other ∧ other < address + bytes.length ∧ other < size ↔
      address ≤ other ∧ other < address + room address bytes.length := by
    simp only [room]
    omega
  simp only [window]

/-- A loop that writes one byte a round, each to its own distance from a target. -/
theorem foldl_write_range' (memory : Memory) (target first count : Nat) (value : Nat → UInt8) :
    (List.range' first count).foldl
        (fun memory number => memory.write (target + number) (value number)) memory =
      memory.writeAll (target + first) ((List.range' first count).map value) := by
  induction count generalizing memory first with
  | zero => rfl
  | succ count ih =>
      rw [List.range'_succ, List.foldl_cons, List.map_cons, writeAll, ih, Nat.add_assoc]

end ChipEight.Memory
