import ChipEight.Keypad
import ChipEight.Machine.State
import ChipEight.Notice
import ChipEight.Random.Stream
import ChipEight.Settings

/-!
# The machine

A machine is a state together with what rewinding leaves alone: its settings, the
past states themselves, the keypad and the random bytes. Whoever drives it decides
when it steps and when its timers tick; it keeps no clock of its own.

An operation on a machine answers with a reply: a value, the machine afterwards, and
what there is to report.
-/

namespace ChipEight

/-- A machine. -/
structure Machine where
  settings : Settings
  state : State
  /-- The states before the latest steps, the newest first. -/
  past : List State
  keypad : Keypad
  random : Random.Generator
  deriving DecidableEq

/-- The outcome of an operation on a machine. -/
structure Reply (Value : Type) where
  value : Value
  machine : Machine
  notices : Array Notice

namespace Reply

def andThen {First Second : Type} (reply : Reply First)
    (operation : Machine → Reply Second) : Reply Second :=
  let later := operation reply.machine
  { later with notices := reply.notices ++ later.notices }

def map {First Second : Type} (change : First → Second) (reply : Reply First) : Reply Second :=
  ⟨change reply.value, reply.machine, reply.notices⟩

@[simp]
theorem value_map {First Second : Type} (change : First → Second) (reply : Reply First) :
    (reply.map change).value = change reply.value :=
  rfl

@[simp]
theorem machine_map {First Second : Type} (change : First → Second) (reply : Reply First) :
    (reply.map change).machine = reply.machine :=
  rfl

@[simp]
theorem notices_map {First Second : Type} (change : First → Second) (reply : Reply First) :
    (reply.map change).notices = reply.notices :=
  rfl

end Reply

namespace Machine

/-- A machine that has just been switched on. The entropy is the key of its random bytes
unless the settings have a seed for them. -/
def start (settings : Settings) (entropy : Random.Entropy) : Machine where
  settings := settings
  state := State.start settings.programStart
  past := []
  keypad := Keypad.released
  random := Random.Generator.start <|
    match settings.seed with
    | some seed => Random.keyOfSeed seed
    | none => Random.keyOfEntropy entropy

def modifyState (machine : Machine) (change : State → State) : Machine :=
  { machine with state := change machine.state }

/-- The machine switched off and on again. Its random bytes go on where they were. -/
def reset (machine : Machine) : Machine :=
  { machine with
    state := State.start machine.settings.programStart
    past := []
    keypad := Keypad.released }

/-- Put a state in front of the past ones, the newest first, of which at most `depth` are
kept. Where there are as many already the oldest makes room; where none is kept nothing
happens. -/
def keepState (depth : Nat) (state : State) (past : List State) : List State :=
  if depth = 0 then past
  else if past.length = depth then state :: past.dropLast
  else state :: past

def remember (machine : Machine) : Machine :=
  { machine with past := keepState machine.settings.historyDepth machine.state machine.past }

/-- Go back to the newest past state, if there is one. Its picture has to be drawn anew. -/
def rewind (machine : Machine) : Reply Bool :=
  match machine.past with
  | state :: older =>
    ⟨true, { machine with state := { state with redraw := true }, past := older }, #[]⟩
  | [] => ⟨false, machine, #[.nothingToRewind]⟩

/-- The picture, if it may have changed since it was last taken. -/
def takeFrame (machine : Machine) : Reply (Option Screen) :=
  if machine.state.redraw then
    ⟨some machine.state.screen,
      machine.modifyState fun state => { state with redraw := false }, #[]⟩
  else
    ⟨none, machine, #[]⟩

def isAwaitingKey (machine : Machine) : Bool :=
  machine.state.awaiting.isSome

def soundIsActive (machine : Machine) : Bool :=
  0 < machine.state.soundTimer

/-- Press a key. A machine that waits for one stores it and goes on. -/
def pressKey (machine : Machine) (key : Key) : Reply Unit :=
  let pressed := { machine with keypad := machine.keypad.set key true }
  match machine.state.awaiting with
  | some register =>
    let resumed := pressed.modifyState fun state =>
      { state.setV register (Digit.toByte key) with awaiting := none }
    ⟨(), resumed, #[.keyStored key register]⟩
  | none => ⟨(), pressed, #[]⟩

def press (machine : Machine) (byte : UInt8) : Reply Unit :=
  match Digit.ofByte? byte with
  | some key => machine.pressKey key
  | none => ⟨(), machine, #[]⟩

def release (machine : Machine) (byte : UInt8) : Machine :=
  { machine with keypad := machine.keypad.release byte }

/-- Give up a wait for a key. The instruction that waits will run again. The answer tells
whether there was a wait. -/
def cancelWait (machine : Machine) : Reply Bool :=
  match machine.state.awaiting with
  | some register =>
    let cancelled := machine.modifyState fun state =>
      { state.jump (state.registers.counter - 2) with awaiting := none }
    ⟨true, cancelled, #[.waitCancelled register]⟩
  | none => ⟨false, machine, #[]⟩

end Machine

end ChipEight
