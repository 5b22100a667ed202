import ChipEight.Instruction.Execute
import ChipEight.Proofs.Instruction.Table

/-!
# Footprints of instructions

Most instructions only compute: they change registers and nothing else of the state.
The other seven draw, store to memory, set a timer or begin a wait. This file sorts the
instructions once; what each of them does to one part of the state follows from that.
-/

namespace ChipEight

/-- Whether a word is one of the two kinds that change the picture. -/
def Word.draws (word : UInt16) : Bool :=
  word == 0x00E0 || Word.family word == 0xD

/-- Whether a word is of the family that is divided by its last two digits, with these two. -/
def Word.isTransfer (word : UInt16) (byte : Nat) : Bool :=
  Word.family word == 0xF && (Word.byte word).toNat == byte

theorem Word.isTransfer_eq_true_iff {word : UInt16} {byte : Nat} :
    Word.isTransfer word byte = true ↔
      Word.family word = 0xF ∧ (Word.byte word).toNat = byte := by
  simp [isTransfer]

/-- Whether a word may store something at an address when the index register points to a first
one. The addresses behind that are not wrapped around. -/
def Word.stores (word : UInt16) (first address : Nat) : Bool :=
  (Word.isTransfer word 0x33 && first ≤ address && address ≤ first + 2) ||
    (Word.isTransfer word 0x55 && first ≤ address && address ≤ first + (Word.x word).val)

namespace Instruction

/-- Whether an instruction changes nothing but registers. -/
def computes : Instruction → Bool
  | .clear | .draw .. | .awaitKey _ | .setDelay _ | .setSound _ | .storeDecimal _ | .spill _ =>
    false
  | _ => true

def draws : Instruction → Bool
  | .clear | .draw .. => true
  | _ => false

def stores (instruction : Instruction) (first address : Nat) : Bool :=
  match instruction with
  | .storeDecimal _ => first ≤ address && address ≤ first + 2
  | .spill last => first ≤ address && address ≤ first + last.val
  | _ => false

/-- The ways in which an instruction changes a state. -/
inductive Change (state : State) : Instruction → State → Prop where
  | computes {instruction : Instruction} (registers : Registers)
      (only : instruction.computes = true) :
      Change state instruction { state with registers := registers }
  | clears : Change state .clear { state with screen := Screen.dark, redraw := true }
  | draws (x y height : Digit) : Change state (.draw x y height) (state.draw x y height)
  | waits (x : Digit) : Change state (.awaitKey x) { state with awaiting := some x }
  | setsDelay (x : Digit) : Change state (.setDelay x) { state with delayTimer := state.v x }
  | setsSound (x : Digit) : Change state (.setSound x) { state with soundTimer := state.v x }
  | storesDecimal (x : Digit) : Change state (.storeDecimal x) (state.storeDecimal x)
  | spills (last : Digit) : Change state (.spill last) (state.spill last)

theorem skipIf_eq (state : State) (condition : Bool) :
    state.skipIf condition =
      { state with
        registers := if condition then state.registers.advance else state.registers } := by
  cases condition <;> rfl

theorem leaveCall_eq (state : State) :
    (leaveCall state).1 = { state with registers := (leaveCall state).1.registers } := by
  unfold leaveCall
  cases state.registers.pop? <;> rfl

theorem enterCall_eq (limit : Option Nat) (state : State) (address : UInt16) :
    (enterCall limit state address).1 =
      { state with registers := (enterCall limit state address).1.registers } := by
  unfold enterCall
  by_cases odd : address % 2 = 1
  · simp only [odd, if_true]
  · simp only [odd, if_false]
    cases reachedLimit? limit state <;> rfl

variable (settings : Settings) (keypad : Keypad) (random : Random.Generator) (state : State)

theorem change_execute (instruction : Instruction) :
    Change state instruction (instruction.execute settings keypad random state).state := by
  cases instruction with
  | clear => exact .clears
  | draw x y height => exact .draws x y height
  | awaitKey x => exact .waits x
  | setDelay x => exact .setsDelay x
  | setSound x => exact .setsSound x
  | storeDecimal x => exact .storesDecimal x
  | spill last => exact .spills last
  | leave =>
      change Change state .leave (leaveCall state).1
      rw [leaveCall_eq]
      exact .computes _ rfl
  | call address =>
      change Change state (.call address) (enterCall settings.stackLimit state address).1
      rw [enterCall_eq]
      exact .computes _ rfl
  | skipIfValue | skipUnlessValue | skipIfEqual | skipUnlessEqual | skipIfDown | skipUnlessDown =>
      rw [execute, skipIf_eq]
      exact .computes _ rfl
  | _ => exact .computes _ rfl

theorem draws_of_computes {instruction : Instruction} (only : instruction.computes = true) :
    instruction.draws = false := by
  cases instruction <;> simp_all [computes, draws]

/-- The wish to have the picture drawn anew arises with an instruction that draws and with no
other. -/
theorem redraw_execute (instruction : Instruction) :
    (instruction.execute settings keypad random state).state.redraw =
      (state.redraw || instruction.draws) := by
  have change := change_execute settings keypad random state instruction
  generalize (instruction.execute settings keypad random state).state = after at change ⊢
  cases change with
  | computes registers only => simp [draws_of_computes only]
  | clears | draws => simp [draws, State.draw]
  | waits | setsDelay | setsSound => simp [draws]
  | storesDecimal | spills =>
      simp [draws, State.storeDecimal, State.spill, State.passRegisters, State.setIndex]

theorem screen_execute {instruction : Instruction} (still : instruction.draws = false) :
    (instruction.execute settings keypad random state).state.screen = state.screen := by
  have change := change_execute settings keypad random state instruction
  generalize (instruction.execute settings keypad random state).state = after at change ⊢
  cases change with
  | clears | draws => simp [Instruction.draws] at still
  | _ => rfl

/-- An instruction leaves memory alone where it does not store anything. -/
theorem memory_execute {instruction : Instruction} {address : Nat}
    (kept : instruction.stores state.target address = false) :
    (instruction.execute settings keypad random state).state.memory.read address =
      state.memory.read address := by
  have change := change_execute settings keypad random state instruction
  generalize (instruction.execute settings keypad random state).state = after at change ⊢
  cases change with
  | storesDecimal x =>
      simp only [stores, Bool.and_eq_false_iff, decide_eq_false_iff_not] at kept
      rw [State.storeDecimal, Memory.read_load, if_neg]
      simp only [Memory.room, State.decimalDigits, List.size_toArray, List.length_cons,
        List.length_nil]
      omega
  | spills last =>
      simp only [stores, Bool.and_eq_false_iff, decide_eq_false_iff_not] at kept
      change (state.memory.load state.target _).read address = _
      rw [Memory.read_load, if_neg]
      simp only [Memory.room, Array.size_extract, Vector.size_toArray]
      omega
  | _ => rfl

theorem delayTimer_execute {instruction : Instruction}
    (other : ∀ x, instruction ≠ .setDelay x) :
    (instruction.execute settings keypad random state).state.delayTimer = state.delayTimer := by
  have change := change_execute settings keypad random state instruction
  generalize (instruction.execute settings keypad random state).state = after at change ⊢
  cases change with
  | setsDelay x => exact absurd rfl (other x)
  | _ => rfl

theorem soundTimer_execute {instruction : Instruction}
    (other : ∀ x, instruction ≠ .setSound x) :
    (instruction.execute settings keypad random state).state.soundTimer = state.soundTimer := by
  have change := change_execute settings keypad random state instruction
  generalize (instruction.execute settings keypad random state).state = after at change ⊢
  cases change with
  | setsSound x => exact absurd rfl (other x)
  | _ => rfl

/-- Only the instruction that waits for a key begins a wait. -/
theorem awaiting_execute (instruction : Instruction) :
    (instruction.execute settings keypad random state).state.awaiting = state.awaiting ∨
      ∃ x, instruction = .awaitKey x := by
  have change := change_execute settings keypad random state instruction
  generalize (instruction.execute settings keypad random state).state = after at change ⊢
  cases change with
  | waits x => exact .inr ⟨x, rfl⟩
  | _ => exact .inl rfl

/-- Only one instruction draws a random byte. -/
theorem random_execute {instruction : Instruction}
    (steady : ∀ x mask, instruction ≠ .random x mask) :
    (instruction.execute settings keypad random state).random = random := by
  cases instruction with
  | random x mask => exact absurd rfl (steady x mask)
  | _ => rfl

theorem stores_of_standsFor {word : UInt16} {instruction : Instruction}
    (stands : Word.StandsFor word instruction) (first address : Nat) :
    instruction.stores first address = Word.stores word first address := by
  cases stands with
  | clear whole | leave whole =>
      subst whole
      rfl
  | readDelay family byte | awaitKey family byte | setDelay family byte | setSound family byte
  | pointBeyond family byte | pointToGlyph family byte | storeDecimal family byte
  | spill family byte | fill family byte =>
      simp [stores, Word.stores, Word.isTransfer, family, byte]
  | _ family => simp [stores, Word.stores, Word.isTransfer, family]

theorem draws_of_standsFor {word : UInt16} {instruction : Instruction}
    (stands : Word.StandsFor word instruction) : instruction.draws = Word.draws word := by
  have inFamily {number : Nat} (family : Word.family word = number) (nonzero : number ≠ 0) :
      Word.draws word = (number == 0xD) := by
    have notClear : word ≠ 0x00E0 := by
      rintro rfl
      exact nonzero family.symm
    simp [Word.draws, notClear, family]
  cases stands with
  | clear whole | leave whole =>
      subst whole
      rfl
  | _ family =>
      rw [inFamily family (by decide)]
      rfl

end Instruction

end ChipEight
