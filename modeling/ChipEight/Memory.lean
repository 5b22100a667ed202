import ChipEight.Font

/-!
# Memory

Four kilobytes, addressed by any natural number. An address past the end reads as
zero and swallows what is written there, so a program that runs off the end of
memory fetches zeros instead of failing.

A program is copied in as one block: the part of it that has room replaces that
stretch of memory and the rest is dropped.
-/

namespace ChipEight

abbrev Memory.size : Nat := 4096

structure Memory where
  cells : Vector UInt8 Memory.size
  deriving DecidableEq

namespace Memory

def zero : Memory := ⟨Vector.replicate size 0⟩

/-- The byte at an address; zero past the end. -/
def read (memory : Memory) (address : Nat) : UInt8 :=
  memory.cells[address]?.getD 0

/-- Replace the byte at an address; past the end nothing happens. -/
def write (memory : Memory) (address : Nat) (byte : UInt8) : Memory :=
  ⟨memory.cells.setIfInBounds address byte⟩

/-- How many of `count` bytes find room from an address on. -/
def room (address count : Nat) : Nat :=
  min count (size - address)

/-- Copy a block of bytes to an address. What lies before the block and behind it
stays, and bytes of the block that find no room are dropped. -/
def load (memory : Memory) (address : Nat) (block : Array UInt8) : Memory :=
  let count := room address block.size
  ⟨⟨memory.cells.toArray.extract 0 address ++ block.extract 0 count ++
      memory.cells.toArray.extract (address + count) size,
    by simp [count, room, size]; omega⟩⟩

def slice (memory : Memory) (first past : Nat) : List UInt8 :=
  (memory.cells.toArray.extract first past).toList

def initial : Memory :=
  zero.load Font.address.toNat Font.glyphs

theorem read_of_size_le (memory : Memory) {address : Nat} (past : size ≤ address) :
    memory.read address = 0 := by
  simp only [size] at past
  simp [read, past]

theorem read_write (memory : Memory) (address : Nat) (byte : UInt8) (other : Nat) :
    (memory.write address byte).read other =
      if other = address ∧ address < size then byte else memory.read other := by
  simp only [read, write, Vector.getElem?_setIfInBounds]
  by_cases same : address = other
  · subst same
    by_cases within : address < size
    · simp [within]
    · simp [within]
  · simp [same, Ne.symm same]

/-- After a block has been copied, the addresses it was copied to read as the block and all
others as before. -/
theorem read_load (memory : Memory) (address : Nat) (block : Array UInt8) (other : Nat) :
    (memory.load address block).read other =
      if address ≤ other ∧ other < address + room address block.size then
        block[other - address]?.getD 0
      else memory.read other := by
  obtain ⟨⟨cells, full⟩⟩ := memory
  simp only [read, load, Vector.getElem?_mk, Array.getElem?_append, Array.getElem?_extract,
    Array.size_append, Array.size_extract, room, size] at *
  grind

/-- A block that has room is found where it was copied to. -/
theorem read_load_add (memory : Memory) {address place : Nat} {block : Array UInt8}
    (within : place < block.size) (fits : address + block.size ≤ size) :
    (memory.load address block).read (address + place) = block[place] := by
  have all : room address block.size = block.size := by
    simp only [room]
    omega
  rw [read_load, all, if_pos ⟨Nat.le_add_right .., Nat.add_lt_add_left within _⟩,
    Nat.add_sub_cancel_left, Array.getElem?_eq_getElem within, Option.getD_some]

/-- Two memories with the same bytes are equal. -/
theorem ext_read {first second : Memory}
    (equal : ∀ address, address < size → first.read address = second.read address) :
    first = second := by
  obtain ⟨firstCells⟩ := first
  obtain ⟨secondCells⟩ := second
  congr 1
  ext address within : 1
  simpa [read, within] using equal address within

theorem room_le (address count : Nat) : room address count ≤ count :=
  Nat.min_le_left ..

end Memory

end ChipEight
