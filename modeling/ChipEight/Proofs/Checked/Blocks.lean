import ChipEight.Proofs.Memory
import ChipEight.Proofs.Checked.Storage

/-!
# Blocks, whole and byte by byte

The copy of a block works out how much of it has room and moves that part in one piece. Single
writes need no such bound: each one that misses memory is dropped on its own. Both ways lead to the
same memory, and the bound counts the writes that hit it.
-/

namespace ChipEight.Memory

/-- The writes that a block consists of, each with its address, the first byte first. -/
def singleWrites (address : Nat) (bytes : List UInt8) : List (Nat × UInt8) :=
  bytes.zipIdx.map fun (byte, place) => (address + place, byte)

theorem singleWrites_cons (address : Nat) (byte : UInt8) (later : List UInt8) :
    singleWrites address (byte :: later) =
      (address, byte) :: singleWrites (address + 1) later := by
  simp only [singleWrites, List.zipIdx_cons, List.map_cons, Nat.add_zero, List.cons.injEq, true_and]
  rw [List.zipIdx_succ, List.map_map]
  apply List.map_congr_left
  intro entry _
  simp only [Function.comp_apply, Nat.add_assoc, Nat.add_comm 1]

/-- Carry out writes one after another. -/
def writeEach (memory : Memory) (writes : List (Nat × UInt8)) : Memory :=
  writes.foldl (fun written write => written.write write.1 write.2) memory

theorem writeEach_singleWrites (memory : Memory) (address : Nat) (bytes : List UInt8) :
    memory.writeEach (singleWrites address bytes) = memory.writeAll address bytes := by
  induction bytes generalizing memory address with
  | nil => rfl
  | cons byte later ih =>
      rw [singleWrites_cons, writeAll, ← ih]
      rfl

/-- The bytes of a block that find room are those whose own write hits memory. -/
theorem countP_singleWrites (address : Nat) (bytes : List UInt8) :
    (singleWrites address bytes).countP (fun write => write.1 < size) =
      room address bytes.length := by
  induction bytes generalizing address with
  | nil => simp [singleWrites, room]
  | cons byte later ih =>
      rw [singleWrites_cons, List.countP_cons, ih, List.length_cons]
      simp only [room, decide_eq_true_eq]
      split <;> omega

/-- The bytes of the part of a block that has room are found where they were copied to, and every
other address reads as before. -/
theorem some_read_load (memory : Memory) (address : Nat) (block : Array UInt8) (other : Nat) :
    some ((memory.load address block).read other) =
      if address ≤ other ∧ other < address + room address block.size then
        block[other - address]?
      else some (memory.read other) := by
  rw [read_load]
  split
  · next inside =>
      have within : other - address < block.size := by
        have taken := room_le address block.size
        omega
      rw [Array.getElem?_eq_getElem within, Option.getD_some]
  · rfl

end ChipEight.Memory

namespace ChipEight

open Memory

/-- A block that is copied as a whole leads to the memory that writing its bytes one after another
leads to, and never takes a slice that does not exist. The answer is the number of those writes
that hit memory. Afterwards the bytes that found room are read where they were copied to, and what
was there before is read everywhere else. -/
theorem load_is_single_writes (memory : Memory) (address : Nat) (block : Array UInt8) :
    let count := room address block.size
    let after := memory.load address block
    let writes := singleWrites address block.toList
    memory.load? address block = some (count, after) ∧
    after = memory.writeEach writes ∧
    count = writes.countP (fun write => write.1 < size) ∧
    (count : Int) = min (block.size : Int) (max 0 ((size : Int) - address)) ∧
    ∀ other, some (after.read other) =
      if address ≤ other ∧ other < address + count then block[other - address]?
      else some (memory.cells[other]?.getD 0) := by
  intro count after writes
  refine ⟨memory.load?_eq address block, ?same, ?hits, ?formula, ?reads⟩
  case same =>
    calc after
        = memory.writeAll address block.toList := by rw [writeAll_eq_load]
      _ = memory.writeEach writes := (writeEach_singleWrites memory address block.toList).symm
  case hits => exact (countP_singleWrites address block.toList).symm
  case formula =>
    simp only [count, room]
    omega
  case reads => exact memory.some_read_load address block

/-- Of four bytes two find room at the last two addresses, and none behind them. -/
example : room 0xFFE 4 = 2 ∧ room size 4 = 0 := by decide

end ChipEight
