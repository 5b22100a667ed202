import ChipEight.Session.Folder
import ChipEight.Session.Loop
import ChipEight.Session.Window

/-!
# Running a session

A session loads its ROM, opens a window and takes turns until it is told to quit. It
ends early if the ROM cannot be loaded or a stage of the window fails; a failing
rendering stage shows at the first turn that has a picture to render.
-/

namespace ChipEight.Session

inductive SessionError where
  | cannotOpen (path : String) (problem : FileProblem)
  | cannotLoad (path : String) (error : RomError)
  | tooWide (width : UInt32)
  | tooHigh (height : UInt32)
  | stageFailed (failure : StageFailure)
  deriving DecidableEq, Repr

def SessionError.message : SessionError → String
  | .cannotOpen path problem => s!"unable to open {path}: " ++ problem.message
  | .cannotLoad path error => s!"unable to load {path}: " ++ error.fullMessage
  | .tooWide width => s!"Window width ({width}) is too high."
  | .tooHigh height => s!"Window height ({height}) is too high."
  | .stageFailed failure => failure.message

/-- A texture that was shown, and the number of the turn that showed it. -/
structure Presented where
  turn : Nat
  bytes : List UInt8

/-- What is known about a session at its end. -/
structure Report where
  error : Option SessionError := none
  window : Option Window := none
  texture : Option TextureRecord := none
  /-- The number of the turn in which the loop ended; zero if it never began. -/
  lastTurn : Nat := 0
  frames : List Presented := []
  notices : Array Notice := #[]

namespace Report

def fail (report : Report) (error : SessionError) : Report :=
  { report with error := some error }

/-- The textures that turns show, when the first of them has a number. -/
def shown (number : Nat) : List Turn → List Presented
  | [] => []
  | turn :: later =>
    match turn.rendered with
    | some screen => ⟨number, screen.texture⟩ :: shown (number + 1) later
    | none => shown (number + 1) later

def addTurns (report : Report) (turns : List Turn) : Report :=
  let frames := shown 0 turns
  { report with
    texture := if frames.isEmpty then none else some TextureRecord.filled
    lastTurn := turns.length - 1
    frames := frames
    notices := turns.foldl (fun notices turn => notices ++ turn.notices) report.notices }

/-- Add what turns did when rendering fails: nothing is shown, and the loop ends at the
first turn that has a picture to render. -/
def addTurnsFailing (report : Report) (turns : List Turn) (failure : StageFailure) : Report :=
  match turns.findIdx? fun turn => turn.rendered.isSome with
  | none => report.addTurns turns
  | some number =>
    let ended := report.addTurns (turns.take number)
    { ended with
      error := some (.stageFailed failure)
      texture := some (TextureRecord.ofStage failure.stage)
      lastTurn := number }

end Report

/-- Go on once the window has been asked for. A stage before the first turn that fails ends
the session there. -/
def takeTurns (report : Report) (machine : Machine) (failure : Option StageFailure)
    (script : List (List Event)) : Report :=
  let turns := (Loop.start machine).turns script
  match failure with
  | some failure =>
    if failure.stage.isRendering then report.addTurnsFailing turns failure
    else report.fail (.stageFailed failure)
  | none => report.addTurns turns

def openWindow (report : Report) (machine : Machine) (scale : UInt32)
    (failure : Option StageFailure) (script : List (List Event)) : Report :=
  let window := Window.ofScale scale
  match failure.filter (·.stage.precedesWindow) with
  | some failure => report.fail (.stageFailed failure)
  | none =>
    if Window.sizeLimit ≤ window.width then report.fail (.tooWide window.width)
    else if Window.sizeLimit ≤ window.height then report.fail (.tooHigh window.height)
    else takeTurns { report with window := some window } machine failure script

def insertRom (machine : Machine) (path : String) (source : Except FileProblem RomSource) :
    Reply (Option SessionError) :=
  match source with
  | .error problem => ⟨some (.cannotOpen path problem), machine, #[]⟩
  | .ok source =>
    let reply := machine.loadRom source
    match reply.value with
    | .error error => ⟨some (.cannotLoad path error), reply.machine, reply.notices⟩
    | .ok count => ⟨none, reply.machine, reply.notices.push (.fileLoaded count path)⟩

/-- Run a session: the ROM at a path as it was found there, the settings, the size of a
pixel, the entropy for random bytes, the stage that fails, and the events of each turn. -/
def run (path : String) (source : Except FileProblem RomSource) (settings : Settings)
    (scale : UInt32) (entropy : Random.Entropy) (failure : Option StageFailure)
    (script : List (List Event)) : Report :=
  let reply := insertRom (Machine.start settings entropy) path source
  let report : Report := { notices := reply.notices }
  match reply.value with
  | some error => report.fail error
  | none => openWindow report reply.machine scale failure script

end ChipEight.Session
