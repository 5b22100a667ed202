import ChipEight.FileProblem
import ChipEight.Machine.Basic

/-!
# Programs and ROMs

A program is copied to any address, and what finds no room is dropped. A ROM is
copied to where programs start, and only as a whole: one that cannot be read to its
end, or does not fit, leaves the machine as it was.
-/

namespace ChipEight

inductive RomSource where
  | complete (bytes : Array UInt8)
  /-- Some bytes, and then a problem. -/
  | broken (bytes : Array UInt8) (problem : FileProblem)

/-- Why a ROM was not loaded. -/
inductive RomError where
  | unreadable (problem : FileProblem)
  | tooLarge (size room : Nat)
  deriving DecidableEq, Repr

def RomError.message : RomError → String
  | .unreadable _ => "unable to read ROM"
  | .tooLarge size room =>
    s!"ROM is {size} bytes but only {room} bytes fit after the load address"

/-- The wording of a ROM error and of what caused it. -/
def RomError.fullMessage (error : RomError) : String :=
  match error with
  | .unreadable problem => error.message ++ ": " ++ problem.message
  | .tooLarge .. => error.message

namespace Machine

/-- Copy a program to an address. The answer is how many bytes found room. -/
def loadProgram (machine : Machine) (address : UInt16) (program : Array UInt8) : Reply Nat :=
  let count := Memory.room address.toNat program.size
  let loaded := machine.modifyState fun state =>
    { state with memory := state.memory.load address.toNat program }
  ⟨count, loaded,
    if count < program.size then #[.bytesDropped (program.size - count)] else #[]⟩

/-- Copy a ROM to where programs start. The answer is how many bytes it has. -/
def loadRom (machine : Machine) (source : RomSource) : Reply (Except RomError Nat) :=
  match source with
  | .broken _ problem => ⟨.error (.unreadable problem), machine, #[]⟩
  | .complete bytes =>
    let start := machine.settings.programStart
    let room := Memory.size - start.toNat
    if room < bytes.size then
      ⟨.error (.tooLarge bytes.size room), machine, #[]⟩
    else
      let reply := machine.loadProgram start bytes
      ⟨.ok reply.value, reply.machine, reply.notices.push (.romLoaded reply.value start)⟩

end Machine

end ChipEight
