import ChipEight.Machine.Rom
import ChipEight.Proofs.Checked.Arithmetic

/-!
# Registers and memory, watched

Registers and memory cells named by a program are looked up, and a place that does not exist is
passed over. What cannot be passed over is the place of the flag register, the bounds between which
a block is copied, and the sums and differences those bounds are made of.
-/

namespace ChipEight

open Checked

namespace Registers

/-- The value at the fixed place of the flag among the registers. -/
def flag? (registers : Registers) : Option UInt8 :=
  registers.v[flagRegister.val]?

theorem flag?_eq (registers : Registers) : registers.flag? = some registers.flag := by
  rw [flag?, flag, read, get_of_lt _ flagRegister.isLt,
    Vector.getElem?_eq_getElem flagRegister.isLt]

/-- Write the flag to that place. -/
def setFlag? (registers : Registers) (raised : Bool) : Option Registers := do
  let v ← replace? registers.v flagRegister.val (if raised then 1 else 0)
  return { registers with v := v }

theorem setFlag?_eq (registers : Registers) (raised : Bool) :
    registers.setFlag? raised = some (registers.setFlag raised) := by
  rw [setFlag?, replace?_of_lt flagRegister.isLt]
  rfl

end Registers

namespace Memory

/-- Copy a block to an address. Past the end of memory nothing is copied; before it the room that is
left bounds what is taken from the block. The answer begins with how many bytes that is. -/
def load? (memory : Memory) (address : Nat) (block : Array UInt8) : Option (Nat × Memory) :=
  if size ≤ address then
    some (0, memory)
  else do
    let free ← subtractSizes? size address
    let count := min block.size free
    let past ← addSizes? address count
    let part ← slice? block 0 count
    let cells ← overwrite? memory.cells address past part
    return (count, ⟨cells⟩)

theorem load_of_size_le (memory : Memory) {address : Nat} (block : Array UInt8)
    (past : size ≤ address) : memory.load address block = memory := by
  apply ext_read
  intro other within
  rw [read_load, if_neg (fun inside => absurd within (by omega))]

theorem load?_eq (memory : Memory) (address : Nat) (block : Array UInt8) :
    memory.load? address block = some (room address block.size, memory.load address block) := by
  unfold load?
  by_cases past : size ≤ address
  · have nothing : room address block.size = 0 := by
      simp only [room]
      omega
    rw [if_pos past, nothing, memory.load_of_size_le block past]
  · have taken : room address block.size ≤ block.size := room_le address block.size
    have ends : address + room address block.size ≤ size := by
      simp only [room]
      omega
    have addressed : address + room address block.size < sizeLimit :=
      Nat.lt_of_le_of_lt ends (by decide)
    have length : (block.extract 0 (room address block.size)).size = room address block.size := by
      rw [Array.size_extract]
      omega
    have fits : (address ≤ address + room address block.size ∧
        address + room address block.size ≤ size) ∧
        address + room address block.size - address =
          (block.extract 0 (room address block.size)).size := by
      omega
    have count : min block.size (size - address) = room address block.size := rfl
    rw [if_neg past, subtractSizes?_of_le (Nat.le_of_not_le past)]
    simp only [Option.bind_eq_bind, Option.bind_some, count, addSizes?_of_lt addressed,
      slice?_of_le (Nat.zero_le _) taken, overwrite?, dif_pos fits]
    rfl

/-- Memory when a machine is switched on. -/
def initial? : Option Memory := do
  let (_, memory) ← zero.load? Font.address.toNat Font.glyphs
  return memory

theorem initial?_eq : initial? = some initial := by
  rw [initial?, load?_eq]
  rfl

end Memory

namespace State

def start? (address : UInt16) : Option State := do
  let memory ← Memory.initial?
  return { start address with memory := memory }

theorem start?_eq (address : UInt16) : start? address = some (start address) := by
  rw [start?, Memory.initial?_eq]
  rfl

/-- The word at the program counter, put together from its two bytes. -/
def word? (state : State) : Option UInt16 := do
  let address := state.registers.counter.toNat
  let next ← addSizes? address 1
  let high ← shiftWordLeft? (state.memory.read address).toUInt16 8
  return high ||| (state.memory.read next).toUInt16

theorem shiftLeft_or_eq (high low : UInt8) :
    high.toUInt16 <<< 8 ||| low.toUInt16 = high.toUInt16 * 256 + low.toUInt16 := by
  apply UInt16.toNat_inj.mp
  have highBound := high.toNat_lt
  have lowBound := low.toNat_lt
  have joined : high.toNat <<< 8 ||| low.toNat = high.toNat * 256 + low.toNat := by
    rw [← Nat.shiftLeft_add_eq_or_of_lt lowBound, Nat.shiftLeft_eq]
  have unshifted : high.toNat <<< 8 % 2 ^ 16 = high.toNat <<< 8 := by
    rw [Nat.shiftLeft_eq]
    omega
  simp only [UInt16.toNat_or, UInt16.toNat_shiftLeft, UInt16.toNat_add, UInt16.toNat_mul,
    UInt8.toNat_toUInt16, UInt16.reduceToNat, Nat.reduceMod]
  rw [unshifted, joined]
  omega

theorem word?_eq (state : State) : state.word? = some state.word := by
  have next := addSizes?_word state.registers.counter (show 1 < wordLimit by decide)
  simp only [word?, next, shiftWordLeft?_of_lt (show (8 : UInt16).toNat < 16 by decide),
    Option.bind_eq_bind, Option.bind_some, shiftLeft_or_eq]
  rfl

end State

namespace Machine

/-- A machine that has just been switched on. -/
def start? (settings : Settings) (entropy : Random.Entropy) : Option Machine := do
  let state ← State.start? settings.programStart
  return { start settings entropy with state := state }

theorem start?_eq (settings : Settings) (entropy : Random.Entropy) :
    start? settings entropy = some (start settings entropy) := by
  rw [start?, State.start?_eq]
  rfl

def reset? (machine : Machine) : Option Machine := do
  let state ← State.start? machine.settings.programStart
  return { machine.reset with state := state }

theorem reset?_eq (machine : Machine) : machine.reset? = some machine.reset := by
  rw [reset?, State.start?_eq]
  rfl

/-- Copy a program to an address. How many bytes were dropped is worked out where some were. -/
def loadProgram? (machine : Machine) (address : UInt16) (program : Array UInt8) :
    Option (Reply Nat) := do
  let (count, memory) ← machine.state.memory.load? address.toNat program
  let loaded := machine.modifyState fun state => { state with memory := memory }
  if count < program.size then
    let dropped ← subtractSizes? program.size count
    return ⟨count, loaded, #[.bytesDropped dropped]⟩
  else
    return ⟨count, loaded, #[]⟩

theorem loadProgram?_eq (machine : Machine) (address : UInt16) (program : Array UInt8) :
    machine.loadProgram? address program = some (machine.loadProgram address program) := by
  rw [loadProgram?, Memory.load?_eq]
  simp only [loadProgram, Option.bind_eq_bind, Option.bind_some]
  split
  · next dropped =>
      rw [subtractSizes?_of_le (Nat.le_of_lt dropped)]
      rfl
  · rfl

/-- Copy a ROM to where programs start. The room after the load address is a difference that stops
at zero. -/
def loadRom? (machine : Machine) (source : RomSource) : Option (Reply (Except RomError Nat)) :=
  match source with
  | .broken _ problem => some ⟨.error (.unreadable problem), machine, #[]⟩
  | .complete bytes =>
    let start := machine.settings.programStart
    let room := Memory.size - start.toNat
    if room < bytes.size then
      some ⟨.error (.tooLarge bytes.size room), machine, #[]⟩
    else do
      let reply ← machine.loadProgram? start bytes
      return ⟨.ok reply.value, reply.machine, reply.notices.push (.romLoaded reply.value start)⟩

theorem loadRom?_eq (machine : Machine) (source : RomSource) :
    machine.loadRom? source = some (machine.loadRom source) := by
  cases source with
  | broken bytes problem => rfl
  | complete bytes =>
      simp only [loadRom?, loadRom, loadProgram?_eq]
      split
      · rfl
      · rfl

end Machine

end ChipEight
