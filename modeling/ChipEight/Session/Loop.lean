import ChipEight.Machine.Action
import ChipEight.Session.Event

/-!
# The event loop

A session goes on in turns. In each turn the picture is rendered if it may have
changed, then the waiting events are handled, and then the machine is brought forward
by one step or, while the escape key is held, back by one. The timers tick once every
so many forward turns; the turns are counted by a word of 32 bits, which starts again
at zero after the last.

A quit event ends the session in the middle of its turn: the events behind it are not
looked at, and the machine is not brought anywhere.
-/

namespace ChipEight.Session

/-- A session between two turns. -/
structure Loop where
  machine : Machine
  /-- How many forward turns there were. -/
  cycles : UInt32
  fastForward : Bool
  rewinding : Bool
  deriving DecidableEq

/-- How a turn brought the machine forward or back. -/
inductive Update where
  | stepped (outcome : StepOutcome) (ticked : Bool)
  | rewound (done : Bool)
  deriving DecidableEq, Repr

structure Turn where
  rendered : Option Screen
  /-- How the machine was brought forward or back; nothing if the session ended. -/
  update : Option Update
  after : Loop
  notices : Array Notice

namespace Loop

def start (machine : Machine) : Loop where
  machine := machine
  cycles := 0
  fastForward := false
  rewinding := false

/-- A key goes down or up. The keypad has precedence over the space bar, which makes the
session fast, and the escape key, which makes it go back. -/
def key (loop : Loop) (code : Keyboard.ScanCode) (down : Bool) : Loop × Array Notice :=
  match Keyboard.ScanCode.label? code with
  | some label =>
    let reply := if down then loop.machine.labelDown label else loop.machine.labelUp label
    ({ loop with machine := reply.machine }, reply.notices)
  | none =>
    if code = Keyboard.ScanCode.space then ({ loop with fastForward := down }, #[])
    else if code = Keyboard.ScanCode.escape then ({ loop with rewinding := down }, #[])
    else (loop, #[])

def handle (loop : Loop) : Event → Loop × Array Notice
  | .keyDown (some code) false => loop.key code true
  | .keyUp (some code) => loop.key code false
  | .keyDown _ _ | .keyUp none | .other | .quit => (loop, #[])

/-- Handle events up to a quit event. The answer tells whether there was one. -/
def poll (loop : Loop) : List Event → Bool × Loop × Array Notice
  | [] => (false, loop, #[])
  | .quit :: _ =>
    let reply := loop.machine.cancelWait
    let ending := if reply.value then #[Notice.quitWhileWaiting] else #[]
    (true, { loop with machine := reply.machine }, reply.notices ++ ending)
  | event :: later =>
    let (handled, notices) := loop.handle event
    let (ended, polled, more) := handled.poll later
    (ended, polled, notices ++ more)

/-- Take a step; when a whole tick's worth of forward turns is complete, the timers tick. -/
def forward (loop : Loop) : Update × Loop × Array Notice :=
  let reply := loop.machine.step
  let cycles := loop.cycles + 1
  let ticked := cycles % loop.machine.settings.cyclesPerTick == 0
  let machine := if ticked then reply.machine.tickTimers else reply.machine
  (.stepped reply.value ticked, { loop with machine := machine, cycles := cycles }, reply.notices)

def backward (loop : Loop) : Update × Loop × Array Notice :=
  let reply := loop.machine.rewind
  (.rewound reply.value, { loop with machine := reply.machine }, reply.notices)

def update (loop : Loop) : Update × Loop × Array Notice :=
  if loop.rewinding then loop.backward else loop.forward

def turn (loop : Loop) (events : List Event) : Turn :=
  let frame := loop.machine.takeFrame
  let (ended, polled, notices) := { loop with machine := frame.machine }.poll events
  if ended then
    ⟨frame.value, none, polled, frame.notices ++ notices⟩
  else
    let (update, after, more) := polled.update
    ⟨frame.value, some update, after, frame.notices ++ notices ++ more⟩

/-- Take a turn for each batch of events, until one ends the session. -/
def turns (loop : Loop) : List (List Event) → List Turn
  | [] => []
  | events :: later =>
    let turn := loop.turn events
    match turn.update with
    | none => [turn]
    | some _ => turn :: turn.after.turns later

end Loop

end ChipEight.Session
