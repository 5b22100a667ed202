import ChipEight.Instruction.Execute
import ChipEight.Proofs.Checked.Drawing
import ChipEight.Proofs.Checked.Transfer
import ChipEight.Proofs.Instruction.Words

/-!
# Instructions, watched

Most of the arithmetic on registers wraps around. What is watched there is the place of the flag and
the amount of a shift. An instruction that is decoded from a word has an address of twelve bits,
which leaves room for the byte that a jump adds to it.
-/

namespace ChipEight

open Checked

namespace Registers

variable (registers : Registers) (roles : ShiftRoles) (x y : Digit)

def add? : Option Registers :=
  let first := registers.read x
  let second := registers.read y
  (registers.write x (first + second)).setFlag? (255 < first.toNat + second.toNat)

def subtract? : Option Registers := do
  let first := registers.read x
  let second := registers.read y
  let flagged ← registers.setFlag? (second ≤ first)
  return if x = flagRegister then flagged else flagged.write x (first - second)

def shiftRight? : Option Registers := do
  let first := registers.read x
  let halved ← shiftByteRight? first 1
  match roles with
  | .legacy =>
    let flagged ← registers.setFlag? (lowBit first)
    return flagged.write y halved
  | .canonical => (registers.write x halved).setFlag? (lowBit first)

def subtractReversed? : Option Registers := do
  let first := registers.read x
  let second := registers.read y
  match roles with
  | .legacy =>
    let flagged ← registers.setFlag? (first ≤ second)
    return flagged.write y (first - second)
  | .canonical => (registers.write x (second - first)).setFlag? (first ≤ second)

def shiftLeft? : Option Registers := do
  let first := registers.read x
  let doubled ← shiftByteLeft? first 1
  match roles with
  | .legacy =>
    let flagged ← registers.setFlag? (lowBit first)
    return flagged.write y doubled
  | .canonical => (registers.write x doubled).setFlag? (highBit first)

theorem add?_eq : registers.add? x y = some (registers.add x y) :=
  setFlag?_eq ..

theorem subtract?_eq : registers.subtract? x y = some (registers.subtract x y) := by
  simp only [subtract?, setFlag?_eq, Option.bind_eq_bind, Option.bind_some]
  rfl

theorem shiftRight?_eq :
    registers.shiftRight? roles x y = some (registers.shiftRight roles x y) := by
  simp only [shiftRight?, shiftByteRight?_one, setFlag?_eq, Option.bind_eq_bind, Option.bind_some]
  cases roles <;> rfl

theorem subtractReversed?_eq :
    registers.subtractReversed? roles x y = some (registers.subtractReversed roles x y) := by
  simp only [subtractReversed?, setFlag?_eq, Option.bind_eq_bind, Option.bind_some]
  cases roles <;> rfl

theorem shiftLeft?_eq :
    registers.shiftLeft? roles x y = some (registers.shiftLeft roles x y) := by
  simp only [shiftLeft?, shiftByteLeft?_one, setFlag?_eq, Option.bind_eq_bind, Option.bind_some]
  cases roles <;> rfl

end Registers

namespace Instruction

/-- Run an instruction, and fail where an operation has no result. Only eleven instructions have
operations that could fail. -/
def execute? (instruction : Instruction) (settings : Settings) (keypad : Keypad)
    (random : Random.Generator) (state : State) : Option Effect :=
  let quiet (after : Option State) : Option Effect := after.map fun after => ⟨after, random, none⟩
  let computed (after : Option Registers) : Option Effect :=
    quiet (after.map fun after => { state with registers := after })
  match instruction with
  | .add x y => computed (state.registers.add? x y)
  | .subtract x y => computed (state.registers.subtract? x y)
  | .shiftRight x y => computed (state.registers.shiftRight? settings.shiftRoles x y)
  | .subtractReversed x y => computed (state.registers.subtractReversed? settings.shiftRoles x y)
  | .shiftLeft x y => computed (state.registers.shiftLeft? settings.shiftRoles x y)
  | .jumpBeyond address => quiet (state.jumpBeyond? address)
  | .draw x y height => quiet (state.draw? x y height)
  | .pointToGlyph x => quiet (state.pointToGlyph? x)
  | .storeDecimal x => quiet (state.storeDecimal? x)
  | .spill last => quiet (state.spill? last)
  | .fill last => quiet (state.fill? last)
  | other => some (other.execute settings keypad random state)

theorem execute?_eq (instruction : Instruction) (settings : Settings) (keypad : Keypad)
    (random : Random.Generator) (state : State)
    (short : ∀ {address}, instruction.address? = some address → address < 0x1000) :
    instruction.execute? settings keypad random state =
      some (instruction.execute settings keypad random state) := by
  cases instruction with
  | add x y => simp only [execute?, Registers.add?_eq]; rfl
  | subtract x y => simp only [execute?, Registers.subtract?_eq]; rfl
  | shiftRight x y => simp only [execute?, Registers.shiftRight?_eq]; rfl
  | subtractReversed x y => simp only [execute?, Registers.subtractReversed?_eq]; rfl
  | shiftLeft x y => simp only [execute?, Registers.shiftLeft?_eq]; rfl
  | jumpBeyond address => simp only [execute?, state.jumpBeyond?_eq (short rfl)]; rfl
  | draw x y height => simp only [execute?, State.draw?_eq]; rfl
  | pointToGlyph x => simp only [execute?, State.pointToGlyph?_eq]; rfl
  | storeDecimal x => simp only [execute?, State.storeDecimal?_eq]; rfl
  | spill last => simp only [execute?, State.spill?_eq]; rfl
  | fill last => simp only [execute?, State.fill?_eq]; rfl
  | _ => rfl

end Instruction

end ChipEight
