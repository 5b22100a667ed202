import ChipEight.Proofs.Instruction.Footprint
import ChipEight.Proofs.Instruction.Table

/-!
# What instructions do to registers

An instruction may write some V registers, point the index register elsewhere, steer the program
counter, or enter and leave calls. Which of these it may do is told by its kind and its operands;
the rest of the registers stays as it was.
-/

namespace ChipEight

/-- Whether a word may change a V register. With the legacy roles, the result of three
instructions goes to their second register. -/
def Word.writes (roles : ShiftRoles) (word : UInt16) (register : Digit) : Bool :=
  let isX := register == Word.x word
  let isY := register == Word.y word
  let isFlag := register == Registers.flagRegister
  match Word.family word with
  | 0x6 | 0x7 | 0xC => isX
  | 0x8 =>
    match (Word.last word).val with
    | 0x0 | 0x1 | 0x2 | 0x3 => isX
    | 0x4 | 0x5 => isX || isFlag
    | 0x6 | 0x7 | 0xE =>
      match roles with
      | .legacy => isY || isFlag
      | .canonical => isX || isFlag
    | _ => false
  | 0xD => isFlag
  | 0xF =>
    match (Word.byte word).toNat with
    | 0x07 => isX
    | 0x65 => register ≤ Word.x word
    | _ => false
  | _ => false

/-- Whether a word may change the index register. -/
def Word.points (word : UInt16) : Bool :=
  Word.family word == 0xA || Word.isTransfer word 0x1E || Word.isTransfer word 0x29 ||
    Word.isTransfer word 0x55 || Word.isTransfer word 0x65

namespace Registers

/-- What stays as it was where only some V registers may change. -/
structure SameBut (touched : Digit → Bool) (before after : Registers) : Prop where
  read_eq : ∀ register, touched register = false → after.read register = before.read register
  index_eq : after.index = before.index
  counter_eq : after.counter = before.counter
  stack_eq : after.stack = before.stack

variable {touched : Digit → Bool} {before after : Registers}

theorem SameBut.refl (touched : Digit → Bool) (registers : Registers) :
    SameBut touched registers registers :=
  ⟨fun _ _ => rfl, rfl, rfl, rfl⟩

theorem SameBut.write (same : SameBut touched before after) {x : Digit}
    (touches : touched x = true) (value : UInt8) :
    SameBut touched before (after.write x value) where
  read_eq := by
    intro register still
    have other : register ≠ x := by
      rintro rfl
      exact absurd touches (by simp [still])
    rw [read_write, if_neg other, same.read_eq register still]
  index_eq := same.index_eq
  counter_eq := same.counter_eq
  stack_eq := same.stack_eq

theorem SameBut.setFlag (same : SameBut touched before after)
    (touches : touched flagRegister = true) (raised : Bool) :
    SameBut touched before (after.setFlag raised) :=
  same.write touches _

end Registers

namespace Instruction

def writes (roles : ShiftRoles) (instruction : Instruction) (register : Digit) : Bool :=
  let isFlag := register == Registers.flagRegister
  match instruction with
  | .put x _ | .increase x _ | .copy x _ | .or x _ | .and x _ | .xor x _ | .random x _
  | .readDelay x => register == x
  | .add x _ | .subtract x _ => register == x || isFlag
  | .shiftRight x y | .subtractReversed x y | .shiftLeft x y =>
    match roles with
    | .legacy => register == y || isFlag
    | .canonical => register == x || isFlag
  | .draw .. => isFlag
  | .fill last => register ≤ last
  | _ => false

/-- Whether an instruction may change the index register. -/
def points : Instruction → Bool
  | .point _ | .pointBeyond _ | .pointToGlyph _ | .spill _ | .fill _ => true
  | _ => false

/-- Whether an instruction may change the program counter once more. -/
def steers : Instruction → Bool
  | .leave | .jump _ | .call _ | .skipIfValue .. | .skipUnlessValue .. | .skipIfEqual ..
  | .skipUnlessEqual .. | .jumpBeyond _ | .skipIfDown _ | .skipUnlessDown _ => true
  | _ => false

/-- Whether an instruction may change the return addresses. -/
def calls : Instruction → Bool
  | .leave | .call _ => true
  | _ => false

/-- What an instruction leaves of the registers. -/
structure Keeps (roles : ShiftRoles) (instruction : Instruction) (before after : Registers) :
    Prop where
  read_eq : ∀ register, instruction.writes roles register = false →
    after.read register = before.read register
  index_eq : instruction.points = false → after.index = before.index
  counter_eq : instruction.steers = false → after.counter = before.counter
  stack_eq : instruction.calls = false → after.stack = before.stack

variable {roles : ShiftRoles} {instruction : Instruction} {before after : Registers}

theorem Keeps.of_sameBut (same : Registers.SameBut (instruction.writes roles) before after) :
    Keeps roles instruction before after :=
  ⟨same.read_eq, fun _ => same.index_eq, fun _ => same.counter_eq, fun _ => same.stack_eq⟩

theorem keeps_subtract (x y : Digit) (registers : Registers) :
    Keeps roles (.subtract x y) registers (registers.subtract x y) := by
  have flagged (raised : Bool) : Registers.SameBut (writes roles (.subtract x y)) registers
      (registers.setFlag raised) := (Registers.SameBut.refl _ _).setFlag (by simp [writes]) _
  simp only [Registers.subtract]
  split
  · exact .of_sameBut (flagged _)
  · exact .of_sameBut ((flagged _).write (by simp [writes]) _)

theorem keeps_leaveCall (state : State) :
    Keeps roles .leave state.registers (leaveCall state).1.registers := by
  unfold leaveCall Registers.pop?
  cases state.registers.stack <;> exact ⟨fun _ _ => rfl, fun _ => rfl, nofun, nofun⟩

theorem keeps_enterCall (limit : Option Nat) (state : State) (address : UInt16) :
    Keeps roles (.call address) state.registers (enterCall limit state address).1.registers := by
  unfold enterCall
  split
  · exact ⟨fun _ _ => rfl, fun _ => rfl, nofun, nofun⟩
  · cases reachedLimit? limit state <;> exact ⟨fun _ _ => rfl, fun _ => rfl, nofun, nofun⟩

theorem read_fill (state : State) (last register : Digit) :
    (state.fill last).registers.read register =
      if register ≤ last then state.memory.read (state.target + register.val)
      else state.v register := by
  simp [State.fill, State.passRegisters, State.setIndex, Registers.read, Registers.get]

theorem keeps_fill (state : State) (last : Digit) :
    Keeps roles (.fill last) state.registers (state.fill last).registers where
  read_eq := by
    intro register still
    have beyond : ¬ register ≤ last := of_decide_eq_false still
    rw [read_fill, if_neg beyond]
    rfl
  index_eq := nofun
  counter_eq := fun _ => by simp only [State.fill, State.passRegisters, State.setIndex]
  stack_eq := fun _ => by simp only [State.fill, State.passRegisters, State.setIndex]

variable (settings : Settings) (keypad : Keypad) (random : Random.Generator) (state : State)

/-- The registers after an instruction, but for what it may change. -/
theorem keeps_execute (instruction : Instruction) :
    Keeps settings.shiftRoles instruction state.registers
      (instruction.execute settings keypad random state).state.registers := by
  have same (roles : ShiftRoles) (instruction : Instruction) :
      Registers.SameBut (instruction.writes roles) state.registers state.registers := .refl _ _
  cases instruction with
  | clear | awaitKey | setDelay | setSound | storeDecimal => exact .of_sameBut (same _ _)
  | put | increase | copy | or | and | xor | random | readDelay =>
      exact .of_sameBut ((same _ _).write (by simp [writes]) _)
  | add =>
      exact .of_sameBut (((same _ _).write (by simp [writes]) _).setFlag (by simp [writes]) _)
  | subtract x y => exact keeps_subtract x y state.registers
  | shiftRight | subtractReversed | shiftLeft =>
      simp only [execute]
      generalize settings.shiftRoles = roles
      cases roles with
      | legacy =>
          exact .of_sameBut (((same _ _).setFlag (by simp [writes]) _).write (by simp [writes]) _)
      | canonical =>
          exact .of_sameBut (((same _ _).write (by simp [writes]) _).setFlag (by simp [writes]) _)
  | draw => exact .of_sameBut ((same _ _).setFlag (by simp [writes]) _)
  | jump | jumpBeyond =>
      exact ⟨fun _ _ => rfl, fun _ => rfl, fun steady => Bool.noConfusion steady, fun _ => rfl⟩
  | leave => exact keeps_leaveCall state
  | call address => exact keeps_enterCall settings.stackLimit state address
  | skipIfValue | skipUnlessValue | skipIfEqual | skipUnlessEqual | skipIfDown | skipUnlessDown =>
      rw [execute, skipIf_eq]
      refine ⟨fun _ _ => ?_, fun _ => ?_, fun steady => Bool.noConfusion steady, fun _ => ?_⟩
      all_goals
        dsimp only
        split <;> rfl
  | point | pointBeyond | pointToGlyph | spill =>
      exact ⟨fun _ _ => rfl, fun still => Bool.noConfusion still, fun _ => rfl, fun _ => rfl⟩
  | fill last => exact keeps_fill state last

/-! ## From words to instructions -/

variable {word : UInt16}

theorem writes_of_standsFor (stands : Word.StandsFor word instruction) (roles : ShiftRoles)
    (register : Digit) : instruction.writes roles register = Word.writes roles word register := by
  cases stands with
  | clear whole | leave whole =>
      subst whole
      rfl
  | jump family | call family | skipIfValue family | skipUnlessValue family | put family
  | increase family | point family | jumpBeyond family | random family | draw family
  | skipIfEqual family | skipUnlessEqual family | skipIfDown family | skipUnlessDown family =>
      simp only [writes, Word.writes, family]
  | copy family last | or family last | and family last | xor family last | add family last
  | subtract family last | shiftRight family last | subtractReversed family last
  | shiftLeft family last => simp only [writes, Word.writes, family, last]
  | readDelay family byte | awaitKey family byte | setDelay family byte | setSound family byte
  | pointBeyond family byte | pointToGlyph family byte | storeDecimal family byte
  | spill family byte | fill family byte => simp only [writes, Word.writes, family, byte]

theorem points_of_standsFor (stands : Word.StandsFor word instruction) :
    instruction.points = Word.points word := by
  cases stands with
  | clear whole | leave whole =>
      subst whole
      rfl
  | readDelay family byte | awaitKey family byte | setDelay family byte | setSound family byte
  | pointBeyond family byte | pointToGlyph family byte | storeDecimal family byte
  | spill family byte | fill family byte =>
      simp [points, Word.points, Word.isTransfer, family, byte]
  | _ family => simp [points, Word.points, Word.isTransfer, family]

end Instruction

end ChipEight
