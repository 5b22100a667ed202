import ChipEight.Settings

/-!
# What a command line asks for

A command line names a ROM and may change settings. What can be wrong with it, or
what it asks for instead of a run, is a problem; the first one met is reported.
-/

namespace ChipEight.CommandLine

/-- What a run needs to know. -/
structure Request where
  rom : String
  settings : Settings
  scale : UInt32
  deriving DecidableEq

/-- Why a command line leads to no run. -/
inductive Problem where
  | helpWanted
  | versionWanted
  /-- It has an option that does not exist, or a second path. -/
  | unknownArgument
  /-- An option has no value, or the path is empty. -/
  | missingValue
  | badValue
  | repeated
  | unwantedValue
  | missingRom
  deriving DecidableEq, Repr

/-- Whether it is an error, and not an answer that was asked for. -/
def Problem.isError : Problem → Bool
  | .helpWanted | .versionWanted => false
  | _ => true

inductive NumberOption where
  | clockSpeed
  | timerFrequency
  | scale
  | stackLimit
  | history
  | seed
  deriving DecidableEq, Repr

inductive Flag where
  | canonical
  | help
  | version
  deriving DecidableEq, Repr

def NumberOption.ofName? (name : String) : Option NumberOption :=
  match name with
  | "clock-speed" => some .clockSpeed
  | "timer-frequency" => some .timerFrequency
  | "scale" => some .scale
  | "stack-limit" => some .stackLimit
  | "history" => some .history
  | "seed" => some .seed
  | _ => none

def Flag.ofName? (name : String) : Option Flag :=
  match name with
  | "canonical" => some .canonical
  | "help" => some .help
  | "version" => some .version
  | _ => none

def Flag.ofLetter? (letter : Char) : Option Flag :=
  match letter with
  | 'h' => some .help
  | 'V' => some .version
  | _ => none

end ChipEight.CommandLine
