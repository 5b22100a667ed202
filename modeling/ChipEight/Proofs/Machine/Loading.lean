import ChipEight.Machine.Rom

/-!
# ROMs are loaded as a whole or not at all

A ROM is read to its end, its size is compared with the room behind the place where programs start,
and then it is copied by the same operation that drops what finds no room. The two computations of
the room agree wherever programs start, so nothing of a ROM that passes the comparison is dropped.
-/

namespace ChipEight

/-- A block finds room as a whole if it is not larger than what is left of memory. -/
theorem Memory.room_eq_iff {address count : Nat} :
    room address count = count ↔ count ≤ size - address := by
  unfold room
  omega

/-- A block that finds room as a whole replaces what was in its place, and nothing else. -/
theorem Memory.read_load_of_room (memory : Memory) {address : Nat} {block : Array UInt8}
    (fits : block.size ≤ size - address) :
    (∀ (place : Nat) (within : place < block.size),
      (memory.load address block).read (address + place) = block[place]) ∧
    ∀ other, other < address ∨ address + block.size ≤ other →
      (memory.load address block).read other = memory.read other := by
  constructor
  · intro place within
    exact memory.read_load_add within (by omega)
  · intro other outside
    rw [memory.read_load, room_eq_iff.mpr fits, if_neg (by omega)]

namespace Machine

variable {machine : Machine}

/-- A program that finds room is copied without a complaint. -/
theorem loadProgram_of_room {address : UInt16} {program : Array UInt8}
    (fits : program.size ≤ Memory.size - address.toNat) :
    machine.loadProgram address program =
      ⟨program.size,
        { machine with
          state := { machine.state with
            memory := machine.state.memory.load address.toNat program } },
        #[]⟩ := by
  have whole := Memory.room_eq_iff.mpr fits
  simp only [loadProgram, whole, Nat.lt_irrefl, if_false]
  rfl

theorem loadRom_of_tooLarge {bytes : Array UInt8}
    (tooLarge : Memory.size - machine.settings.programStart.toNat < bytes.size) :
    machine.loadRom (.complete bytes) =
      ⟨.error (.tooLarge bytes.size (Memory.size - machine.settings.programStart.toNat)), machine,
        #[]⟩ := by
  simp only [loadRom, tooLarge, if_true]

theorem loadRom_of_room {bytes : Array UInt8}
    (fits : bytes.size ≤ Memory.size - machine.settings.programStart.toNat) :
    machine.loadRom (.complete bytes) =
      ⟨.ok bytes.size,
        { machine with
          state := { machine.state with
            memory := machine.state.memory.load machine.settings.programStart.toNat bytes } },
        #[.romLoaded bytes.size machine.settings.programStart]⟩ := by
  simp only [loadRom, Nat.not_lt.mpr fits, if_false, loadProgram_of_room fits]
  rfl

end Machine

/-- A ROM is loaded as a whole or not at all. One that cannot be read to its end, or is larger than
the room behind the place where programs start, leaves the machine as it was. Any other is found
byte for byte from that place on, and nothing else changes. -/
theorem loadRom_all_or_nothing (machine : Machine) :
    let start := machine.settings.programStart
    let room := Memory.size - start.toNat
    (∀ bytes problem, machine.loadRom (.broken bytes problem) =
      ⟨.error (.unreadable problem), machine, #[]⟩) ∧
    ∀ bytes : Array UInt8,
      let reply := machine.loadRom (.complete bytes)
      let before := machine.state.memory
      let after := reply.machine.state.memory
      (room < bytes.size → reply = ⟨.error (.tooLarge bytes.size room), machine, #[]⟩) ∧
      (bytes.size ≤ room →
        reply.value = .ok bytes.size ∧ reply.notices = #[.romLoaded bytes.size start] ∧
        (∀ (place : Nat) (within : place < bytes.size),
          after.read (start.toNat + place) = bytes[place]) ∧
        (∀ address, address < start.toNat ∨ start.toNat + bytes.size ≤ address →
          after.read address = before.read address) ∧
        reply.machine = { machine with state := { machine.state with memory := after } }) := by
  intro start room
  refine ⟨fun _ _ => rfl, ?_⟩
  intro bytes reply before after
  refine ⟨fun tooLarge => Machine.loadRom_of_tooLarge tooLarge, ?_⟩
  intro fits
  have loaded : reply = _ := Machine.loadRom_of_room fits
  have memory : after = before.load start.toNat bytes := by
    simp only [after, loaded, before, start]
  obtain ⟨inside, outside⟩ := before.read_load_of_room fits
  rw [memory, loaded]
  exact ⟨rfl, rfl, inside, outside, rfl⟩

end ChipEight
