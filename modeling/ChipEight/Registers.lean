import ChipEight.Digit

/-!
# Registers

Sixteen byte registers V0 to VF, the index register that points into memory, the
program counter, and the return addresses of the calls in progress. VF doubles as
the flag for carry, borrow and collision.
-/

namespace ChipEight

/-- The register file. -/
structure Registers where
  v : Vector UInt8 16
  index : UInt16
  counter : UInt16
  /-- Return addresses, the newest first. -/
  stack : List UInt16
  deriving DecidableEq

namespace Registers

def flagRegister : Digit := Digit.ofNat 15

def start (counter : UInt16) : Registers where
  v := Vector.replicate 16 0
  index := 0
  counter := counter
  stack := []

/-- The register with any number; those above VF read as zero. -/
def get (registers : Registers) (number : Nat) : UInt8 :=
  registers.v[number]?.getD 0

/-- Set the register with any number; for those above VF nothing happens. -/
def set (registers : Registers) (number : Nat) (value : UInt8) : Registers :=
  { registers with v := registers.v.setIfInBounds number value }

def read (registers : Registers) (x : Digit) : UInt8 :=
  registers.get x.val

def write (registers : Registers) (x : Digit) (value : UInt8) : Registers :=
  registers.set x.val value

def flag (registers : Registers) : UInt8 :=
  registers.read flagRegister

/-- VF as the outcome of a test: one for true and zero for false. -/
def setFlag (registers : Registers) (raised : Bool) : Registers :=
  registers.write flagRegister (if raised then 1 else 0)

/-- Move the counter past one instruction, around the end of the 16-bit range. -/
def advance (registers : Registers) : Registers :=
  { registers with counter := registers.counter + 2 }

def push (registers : Registers) (address : UInt16) : Registers :=
  { registers with stack := address :: registers.stack }

def pop? (registers : Registers) : Option (UInt16 × Registers) :=
  match registers.stack with
  | [] => none
  | address :: older => some (address, { registers with stack := older })

@[simp]
theorem read_write (registers : Registers) (x other : Digit) (value : UInt8) :
    (registers.write x value).read other = if other = x then value else registers.read other := by
  simp only [read, write, get, set, Vector.getElem?_setIfInBounds, Fin.ext_iff]
  by_cases same : x.val = other.val
  · simp [same]
  · simp [same, Ne.symm same]

theorem get_of_lt (registers : Registers) {number : Nat} (within : number < 16) :
    registers.get number = registers.v[number] := by
  rw [get, Vector.getElem?_eq_getElem within, Option.getD_some]

end Registers

end ChipEight
