import ChipEight.CommandLine.Basic
import ChipEight.CommandLine.Number

/-!
# Drafts of a request

While a command line is read, a draft holds what has been settled so far. Nothing
can be settled twice, and a number is settled only if it reads as one.
-/

namespace ChipEight.CommandLine

/-- What has been settled so far. -/
structure Draft where
  rom : Option String := none
  clockSpeed : Option UInt32 := none
  timerFrequency : Option UInt32 := none
  scale : Option UInt32 := none
  stackLimit : Option Nat := none
  history : Option Nat := none
  seed : Option UInt64 := none
  canonical : Bool := false

namespace Draft

def settle {Number : Type} (before : Option Number) (number : Option Number)
    (store : Number → Draft) : Except Problem Draft :=
  match before, number with
  | some _, _ => .error .repeated
  | none, none => .error .badValue
  | none, some value => .ok (store value)

def giveNumber (draft : Draft) (option : NumberOption) (text : String) : Except Problem Draft :=
  match option with
  | .clockSpeed =>
    settle draft.clockSpeed (readWord32? text) fun value => { draft with clockSpeed := some value }
  | .timerFrequency =>
    settle draft.timerFrequency (readWord32? text) fun value =>
      { draft with timerFrequency := some value }
  | .scale => settle draft.scale (readWord32? text) fun value => { draft with scale := some value }
  | .stackLimit =>
    settle draft.stackLimit (readNatural64? text) fun value =>
      { draft with stackLimit := some value }
  | .history =>
    settle draft.history (readNatural64? text) fun value => { draft with history := some value }
  | .seed =>
    settle draft.seed ((readNatural64? text).map UInt64.ofNat) fun value =>
      { draft with seed := some value }

def giveRom (draft : Draft) (path : String) : Except Problem Draft :=
  if path.isEmpty then .error .missingValue else .ok { draft with rom := some path }

def raise (draft : Draft) : Flag → Except Problem Draft
  | .help => .error .helpWanted
  | .version => .error .versionWanted
  | .canonical => if draft.canonical then .error .repeated else .ok { draft with canonical := true }

/-- The settings of a draft; what it leaves open has its usual value. -/
def settings (draft : Draft) : Settings :=
  let usual : Settings := {}
  { usual with
    clockSpeed := draft.clockSpeed.getD usual.clockSpeed
    timerFrequency := draft.timerFrequency.getD usual.timerFrequency
    stackLimit := draft.stackLimit
    historyDepth := draft.history.getD usual.historyDepth
    seed := draft.seed
    shiftRoles := if draft.canonical then .canonical else .legacy }

def request (draft : Draft) : Except Problem Request :=
  match draft.rom with
  | none => .error .missingRom
  | some rom => .ok { rom := rom, settings := draft.settings, scale := draft.scale.getD 10 }

end Draft

end ChipEight.CommandLine
