import ChipEight.Proofs.Instruction.Registers
import ChipEight.Proofs.Machine.Calls

/-!
# Where a program goes on

After most words a program goes on at the next word. Jumps, calls and returns name another
address, and six words skip the one behind them if a test succeeds. This file tells from the
digits of a word where the program goes on, and shows that every step goes there, whatever word
it meets and wherever in memory or past its end the word stands.
-/

namespace ChipEight

theorem Keypad.isDown_eq (pad : Keypad) (byte : UInt8) :
    pad.isDown byte = (decide (byte.toNat < 16) && pad.holds (Digit.ofNat byte.toNat)) := by
  unfold isDown
  cases named : Digit.ofByte? byte with
  | none =>
      have large := Digit.ofByte?_eq_none_iff.mp named
      rw [decide_eq_false (Nat.not_lt.mpr large), Bool.false_and]
  | some key =>
      have same := Digit.ofByte?_eq_some_iff.mp named
      have isKey : byte.toNat < 16 := same ▸ key.isLt
      have digit : Digit.ofNat byte.toNat = key := by
        apply Fin.ext
        rw [Digit.val_ofNat, Nat.mod_eq_of_lt isKey, same]
      rw [decide_eq_true isKey, Bool.true_and, digit]

namespace Machine

/-- Where a machine goes on after its next step, by the digits of the word. -/
def nextCounter (machine : Machine) : UInt16 :=
  let word := machine.state.word
  let counter := machine.state.registers.counter
  let x := machine.state.v (Word.x word)
  let y := machine.state.v (Word.y word)
  let hasRoom := machine.settings.stackLimit.all (machine.calls.length < ·)
  -- A byte above fifteen names no key.
  let isDown := x.toNat < 16 && machine.keypad.holds (Digit.ofNat x.toNat)
  let skip (condition : Bool) := if condition then counter + 4 else counter + 2
  match Word.family word with
  | 0x0 => if word = 0x00EE then machine.calls.headD (counter + 2) else counter + 2
  | 0x1 => Word.address word
  | 0x2 => if Word.address word % 2 = 0 && hasRoom then Word.address word else counter + 2
  | 0x3 => skip (x == Word.byte word)
  | 0x4 => skip (x != Word.byte word)
  | 0x5 => if (Word.last word).val = 0x0 then skip (x == y) else counter + 2
  | 0x9 => if (Word.last word).val = 0x0 then skip (x != y) else counter + 2
  | 0xB => (machine.state.v (Digit.ofNat 0)).toUInt16 + Word.address word
  | 0xE =>
    match (Word.byte word).toNat with
    | 0x9E => skip isDown
    | 0xA1 => skip (!isDown)
    | _ => counter + 2
  | _ => counter + 2

variable {machine : Machine}

theorem nextCounter_of_unknown (unknown : Instruction.ofWord? machine.state.word = none) :
    machine.nextCounter = machine.state.registers.counter + 2 := by
  have absent := Instruction.not_standsFor_of_unknown unknown
  unfold nextCounter
  dsimp only
  split
  case h_1 => rw [if_neg fun whole => absent _ (.leave whole)]
  case h_2 family => exact absurd (.jump family) (absent _)
  case h_3 family => exact absurd (.call family) (absent _)
  case h_4 family => exact absurd (.skipIfValue family) (absent _)
  case h_5 family => exact absurd (.skipUnlessValue family) (absent _)
  case h_6 family => rw [if_neg fun last => absent _ (.skipIfEqual family last)]
  case h_7 family => rw [if_neg fun last => absent _ (.skipUnlessEqual family last)]
  case h_8 family => exact absurd (.jumpBeyond family) (absent _)
  case h_9 family =>
    split
    case h_1 byte => exact absurd (.skipIfDown family byte) (absent _)
    case h_2 byte => exact absurd (.skipUnlessDown family byte) (absent _)
    case h_3 => rfl
  case h_10 => rfl

theorem counter_skipIf (state : State) (condition : Bool) :
    (state.advance.skipIf condition).registers.counter =
      if condition then state.registers.counter + 4 else state.registers.counter + 2 := by
  cases condition with
  | false => rfl
  | true => exact UInt16.add_assoc ..

section

variable (free : machine.state.awaiting = none)

include free

theorem counter_step_of_leave (whole : machine.state.word = 0x00EE) :
    machine.step.machine.state.registers.counter =
      machine.calls.headD (machine.state.registers.counter + 2) := by
  cases inProgress : machine.calls with
  | nil =>
      rw [state_step_of_empty_return free whole inProgress]
      rfl
  | cons back outer =>
      rw [state_step_of_return free whole inProgress]
      rfl

theorem counter_step_of_call (family : Word.family machine.state.word = 0x2) :
    machine.step.machine.state.registers.counter =
      if Word.address machine.state.word % 2 = 0 &&
        machine.settings.stackLimit.all (machine.calls.length < ·) then
        Word.address machine.state.word
      else machine.state.registers.counter + 2 := by
  have accepts_iff : Instruction.Accepts machine.settings.stackLimit machine.state.advance
      (Word.address machine.state.word) ↔ (Word.address machine.state.word % 2 = 0 &&
        machine.settings.stackLimit.all (machine.calls.length < ·)) = true := by
    rw [Bool.and_eq_true, decide_eq_true_iff, Option.all_eq_true]
    simp only [decide_eq_true_iff]
    exact ⟨fun accepts => ⟨accepts.even, accepts.room⟩, fun both => ⟨both.1, both.2⟩⟩
  by_cases accepts : Instruction.Accepts machine.settings.stackLimit machine.state.advance
    (Word.address machine.state.word)
  · rw [if_pos (accepts_iff.mp accepts), state_step_of_accepted free family accepts]
  · rw [if_neg (mt accepts_iff.mpr accepts), state_step_of_refused free family accepts]
    rfl

end

end Machine

/-- A step that is taken goes on where its word says: at the address of a jump or of a call that
goes through, behind the call that is returned from, two words on if a test succeeds, and at the
next word otherwise. -/
theorem step_follows_course (machine : Machine) (free : machine.state.awaiting = none) :
    machine.step.machine.state.registers.counter = machine.nextCounter := by
  cases decoded : Instruction.ofWord? machine.state.word with
  | none =>
      rw [Machine.step_of_unknown free decoded, Machine.nextCounter_of_unknown decoded]
      rfl
  | some instruction =>
      have ran := Machine.state_step_of_known free decoded
      have plain (steady : instruction.steers = false) :=
        (Instruction.keeps_execute machine.settings machine.keypad machine.random
          machine.state.advance instruction).counter_eq steady
      cases Instruction.standsFor_of_ofWord? decoded with
      | clear whole =>
          rw [ran, plain rfl, Machine.nextCounter, whole]
          rfl
      | leave whole =>
          rw [Machine.counter_step_of_leave free whole, Machine.nextCounter, whole]
          rfl
      | call family =>
          rw [Machine.counter_step_of_call free family]
          simp only [Machine.nextCounter, family]
      | jump family | jumpBeyond family =>
          rw [ran]
          simp only [Machine.nextCounter, family]
          rfl
      | skipIfValue family | skipUnlessValue family =>
          rw [ran]
          simp only [Machine.nextCounter, family]
          exact Machine.counter_skipIf machine.state _
      | skipIfEqual family last | skipUnlessEqual family last =>
          rw [ran]
          simp only [Machine.nextCounter, family, last, if_true]
          exact Machine.counter_skipIf machine.state _
      | skipIfDown family byte | skipUnlessDown family byte =>
          rw [ran]
          simp only [Machine.nextCounter, family, byte, ← Keypad.isDown_eq]
          exact Machine.counter_skipIf machine.state _
      | _ family =>
          rw [ran, plain rfl]
          simp only [Machine.nextCounter, family]
          rfl

/-- A machine that is about to ask for the key of a byte above fifteen, while the key of the
byte's last digit is down. -/
def beforeKeyTest : Machine :=
  ((Machine.start {} 0).run
    [.loadProgram 0x200 #[0xE3, 0xA1], .setRegister 3 0x1F, .press 0xF]).machine

/-- The byte names no key, so the word behind the test is skipped. -/
theorem beforeKeyTest_follows_course :
    beforeKeyTest.state.awaiting = none ∧ beforeKeyTest.state.word = 0xE3A1 ∧
      beforeKeyTest.keypad.isDown 0xF = true ∧
      beforeKeyTest.step.machine.state.registers.counter = 0x204 := by
  have free : beforeKeyTest.state.awaiting = none := rfl
  have loaded : beforeKeyTest.state.memory = Memory.initial.load 0x200 #[0xE3, 0xA1] := rfl
  have counter : beforeKeyTest.state.registers.counter = 0x200 := rfl
  have word : beforeKeyTest.state.word = 0xE3A1 := by
    rw [State.word_of_loaded 0 loaded (congrArg UInt16.toNat counter) (by decide) (by decide)]
    decide
  have asked : beforeKeyTest.state.v (Word.x 0xE3A1) = 0x1F := rfl
  have digits : Word.family 0xE3A1 = 0xE ∧ (Word.byte 0xE3A1).toNat = 0xA1 := by decide
  refine ⟨free, word, by decide, ?_⟩
  rw [step_follows_course beforeKeyTest free, Machine.nextCounter, word]
  simp only [digits, asked, counter]
  rfl

end ChipEight
