import ChipEight.CommandLine.Read
import ChipEight.Screen.Text
import ChipEight.Session.Run

/-!
# The program

Runs a ROM in a terminal. Each line of standard input holds the events of one turn,
separated by commas: `down 20` and `up 20` for the key at a position, `repeat 20` for
one that stays down, and `quit`. The end of the input ends the session. Whenever the
picture may have changed it is written out.
-/

namespace ChipEight.Terminal

def usage : String :=
  "Usage: chip-eight [OPTIONS] <ROM>\n\n" ++
  "  --clock-speed <N>      Instructions per second\n" ++
  "  --timer-frequency <N>  Timer ticks per second\n" ++
  "  --stack-limit <N>      Maximum subroutine nesting; unbounded if omitted\n" ++
  "  --history <N>          Number of past steps kept for rewinding\n" ++
  "  --seed <N>             Seed for the random number instruction\n" ++
  "  --canonical            Use the common shift and subtract register roles\n" ++
  "  --scale <N>            Size of a pixel on screen\n" ++
  "  -h, --help             Print help\n" ++
  "  -V, --version          Print version"

def version : String := "chip-eight 0.1.0"

def problemText : CommandLine.Problem → String
  | .helpWanted => usage
  | .versionWanted => version
  | .unknownArgument => "error: unexpected argument"
  | .missingValue => "error: a value is required"
  | .badValue => "error: invalid value"
  | .repeated => "error: an argument cannot be used multiple times"
  | .unwantedValue => "error: unexpected value for a flag"
  | .missingRom => "error: the ROM is not given"

/-- Why the system could not do something with a file. -/
def fileProblem : IO.Error → FileProblem
  | .noFileOrDirectory .. => .noSuchFile
  | .inappropriateType _ 20 _ => .notDirectory
  | .inappropriateType _ 21 _ => .isDirectory
  | error => .other (toString error)

def readSource (path : String) : IO (Except FileProblem RomSource) := do
  match ← (IO.FS.Handle.mk path .read).toBaseIO with
  | .error problem => return .error (fileProblem problem)
  | .ok handle =>
    match ← handle.readBinToEnd.toBaseIO with
    | .error problem => return .ok (.broken #[] (fileProblem problem))
    | .ok bytes => return .ok (.complete bytes.data)

def eventOfWords : List String → Session.Event
  | ["quit"] => .quit
  | ["down", code] => .keyDown code.toNat? false
  | ["repeat", code] => .keyDown code.toNat? true
  | ["up", code] => .keyUp code.toNat?
  | _ => .other

/-- The events on a line. Past the end of the input there is a quit event. -/
def eventsOfLine (line : String) : List Session.Event :=
  if line.isEmpty then [.quit]
  else
    let words := (line.splitOn ",").map fun event =>
      ((event.trimAscii.toString).splitOn " ").filter (! ·.isEmpty)
    (words.filter (! ·.isEmpty)).map eventOfWords

def tell (notices : Array Notice) : IO Unit :=
  for notice in notices do
    if notice.level = .warning ∨ notice.level = .info then IO.eprintln notice.message

/-- Take turns until one ends the session. -/
partial def takeTurns (input : IO.FS.Stream) (loop : Session.Loop) : IO Unit := do
  let turn := loop.turn (eventsOfLine (← input.getLine))
  if let some screen := turn.rendered then IO.println screen.text
  tell turn.notices
  if turn.update.isSome then takeTurns input turn.after

def run (request : CommandLine.Request) : IO UInt32 := do
  let entropy := Random.Entropy.ofBytes (← IO.getRandomBytes 32).toList
  let machine := Machine.start request.settings entropy
  let reply := Session.insertRom machine request.rom (← readSource request.rom)
  tell reply.notices
  match reply.value with
  | some error =>
    IO.eprintln ("Error: " ++ error.message)
    return 1
  | none =>
    takeTurns (← IO.getStdin) (Session.Loop.start reply.machine)
    return 0

end ChipEight.Terminal

def main (arguments : List String) : IO UInt32 := do
  match ChipEight.CommandLine.read arguments with
  | .ok request => ChipEight.Terminal.run request
  | .error problem =>
    if problem.isError then
      IO.eprintln (ChipEight.Terminal.problemText problem)
      return 2
    else
      IO.println (ChipEight.Terminal.problemText problem)
      return 0
