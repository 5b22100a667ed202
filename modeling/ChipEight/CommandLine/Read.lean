import ChipEight.CommandLine.Draft

/-!
# Reading a command line

Arguments are read from left to right. An option may have its number behind an equals
sign or as the next argument, and `--` makes all that follows a path.

A path, and an option whose number is an argument of its own, are not settled at once
but left pending: they are settled when the next argument turns out to be known, or at
the end. An argument that cannot be known at all (an option that does not exist, a
second path, a value for a flag) is therefore reported before a pending problem.
-/

namespace ChipEight.CommandLine

/-- What one argument is. -/
inductive Argument where
  | separator
  | long (name : String) (value : Option String)
  /-- Letters behind one dash, of which the first decides. -/
  | short (letter : Char)
  /-- Anything else: a value or a path. A lone dash is one. -/
  | plain (text : String)
  deriving DecidableEq, Repr

def splitAtEquals (text : List Char) : String × Option String :=
  let name := String.ofList (text.takeWhile (· != '='))
  match text.dropWhile (· != '=') with
  | [] => (name, none)
  | _ :: value => (name, some (String.ofList value))

def Argument.ofText (text : String) : Argument :=
  match text.toList with
  | ['-', '-'] => .separator
  | '-' :: '-' :: rest =>
    let (name, value) := splitAtEquals rest
    .long name value
  | '-' :: letter :: _ => .short letter
  | _ => .plain text

/-- What has been met but not settled. -/
inductive Pending where
  | nothing
  /-- An option that may still get its number from the next argument. -/
  | option (option : NumberOption)
  | number (option : NumberOption) (text : String)
  | path (path : String)
  deriving DecidableEq, Repr

/-- How far a command line has been read. -/
structure Reading where
  draft : Draft := {}
  pending : Pending := .nothing
  onlyPaths : Bool := false

namespace Reading

def settled (reading : Reading) : Except Problem Draft :=
  match reading.pending with
  | .nothing => .ok reading.draft
  | .option _ => .error .missingValue
  | .number option text => reading.draft.giveNumber option text
  | .path path => reading.draft.giveRom path

def hasPath (reading : Reading) : Bool :=
  match reading.pending with
  | .path _ => true
  | _ => reading.draft.rom.isSome

def leave (reading : Reading) (pending : Pending) : Except Problem Reading := do
  let draft ← reading.settled
  return { reading with draft := draft, pending := pending }

def takePath (reading : Reading) (text : String) : Except Problem Reading :=
  if reading.hasPath then .error .unknownArgument else reading.leave (.path text)

def takeFlag (reading : Reading) (flag : Flag) : Except Problem Reading := do
  let draft ← reading.settled
  let raised ← draft.raise flag
  return { reading with draft := raised, pending := .nothing }

def takeNumber (reading : Reading) (option : NumberOption) (text : String) :
    Except Problem Reading := do
  let draft ← reading.settled
  let given ← draft.giveNumber option text
  return { reading with draft := given, pending := .nothing }

def takeLong (reading : Reading) (name : String) (value : Option String) :
    Except Problem Reading :=
  match NumberOption.ofName? name, Flag.ofName? name, value with
  | some option, _, some text => reading.takeNumber option text
  | some option, _, none => reading.leave (.option option)
  | none, some _, some _ => .error .unwantedValue
  | none, some flag, none => reading.takeFlag flag
  | none, none, _ => .error .unknownArgument

def takeShort (reading : Reading) (letter : Char) : Except Problem Reading :=
  match Flag.ofLetter? letter with
  | some flag => reading.takeFlag flag
  | none => .error .unknownArgument

def takePlain (reading : Reading) (text : String) : Except Problem Reading :=
  match reading.pending with
  | .option option => .ok { reading with pending := .number option text }
  | _ => reading.takePath text

def take (reading : Reading) (text : String) : Except Problem Reading :=
  if reading.onlyPaths then
    reading.takePath text
  else
    match Argument.ofText text with
    | .separator => .ok { reading with onlyPaths := true }
    | .long name value => reading.takeLong name value
    | .short letter => reading.takeShort letter
    | .plain text => reading.takePlain text

end Reading

/-- Read a whole command line. -/
def read (arguments : List String) : Except Problem Request := do
  let reading ← arguments.foldlM Reading.take {}
  let draft ← reading.settled
  draft.request

end ChipEight.CommandLine
