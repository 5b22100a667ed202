import ChipEight.Keypad
import ChipEight.Text.Hex

/-!
# Notices

What a machine and a session report about themselves as they run. A notice is kept
as what happened; its level and its wording are functions of that.
-/

namespace ChipEight

inductive NoticeLevel where
  | trace
  | debug
  | info
  | warning
  deriving DecidableEq, Repr

/-- Something that happened. -/
inductive Notice where
  /-- An instruction word was fetched from an address, with V and I as they were then. -/
  | fetched (word : UInt16) (v : Vector UInt8 16) (index address : UInt16)
  | unknownWord (word address : UInt16)
  | emptyReturn
  | oddCall (address : UInt16)
  /-- A call was refused because as many calls are in progress as the limit allows. -/
  | fullStack (address : UInt16) (limit : Nat)
  | waitBegun (register : Digit)
  | keyStored (key : Key) (register : Digit)
  | waitCancelled (register : Digit)
  | nothingToRewind
  | bytesDropped (count : Nat)
  | romLoaded (count : Nat) (address : UInt16)
  | fileLoaded (count : Nat) (path : String)
  | quitWhileWaiting
  deriving DecidableEq

namespace Notice

def level : Notice → NoticeLevel
  | .fetched .. => .trace
  | .unknownWord .. | .oddCall .. | .fullStack .. | .bytesDropped .. => .warning
  | .fileLoaded .. => .info
  | .emptyReturn | .waitBegun .. | .keyStored .. | .waitCancelled .. | .nothingToRewind
  | .romLoaded .. | .quitWhileWaiting => .debug

def registerName (register : Digit) : String :=
  "V" ++ Text.hex 1 register.val

def registerValues (v : Vector UInt8 16) : String :=
  ", ".intercalate (v.toList.map fun value => Text.hex 2 value.toNat)

def message : Notice → String
  | .fetched word v index address =>
    let word := Text.hex 4 word.toNat
    let values := registerValues v
    let index := Text.hex 4 index.toNat
    let address := Text.hex 4 address.toNat
    s!"{word} v[{values}] i{index} pc{address}"
  | .unknownWord word address =>
    let word := Text.hex 4 word.toNat
    let address := Text.hex 4 address.toNat
    s!"unknown opcode {word} at {address} ignored"
  | .emptyReturn => "return with an empty call stack ignored"
  | .oddCall address =>
    let address := Text.hex 3 address.toNat
    s!"refusing call to odd address {address}"
  | .fullStack address limit =>
    let address := Text.hex 3 address.toNat
    s!"refusing call to {address}: call stack is full ({limit} frames)"
  | .waitBegun register =>
    let register := registerName register
    s!"waiting for a key press to store in {register}"
  | .keyStored key register =>
    let key := Text.hex 1 key.val
    let register := registerName register
    s!"key {key} stored in {register}, resuming"
  | .waitCancelled register =>
    let register := registerName register
    s!"wait for a key for {register} cancelled"
  | .nothingToRewind => "nothing left to rewind"
  | .bytesDropped count => s!"dropped {count} bytes past the end of memory"
  | .romLoaded count address =>
    let address := Text.hex 3 address.toNat
    s!"loaded {count} byte ROM at {address}"
  | .fileLoaded count path => s!"loaded {count} bytes from {path}"
  | .quitWhileWaiting => "quit while waiting for a key"

end Notice

end ChipEight
