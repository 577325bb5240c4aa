import Chip8.Machine.Step
import Chip8.Number.Binary64

/-!
# Sessions

A session runs a machine in frames, paced by a clock. All that a session knows of time is the
readings it takes, so it is a machine in itself, driven by one reading after the other.

A reading that begins a frame first brings the performance figures in the title up to date, once a
second. Then the host is asked for its events, and unless it wants to quit, one frame is run and
the display refreshed. After that, readings are taken until the frame's time is over.

* `Pacing` is the length of a frame and how sums of readings are rounded;
* `Session.onReadingWith` is what a session does at one reading, given what it takes for a frame,
  and `Session.onReading` what it does with the frames of the machine;
* `Session.run` takes readings until the host quits, an error ends the run, or the clock is
  exhausted.
-/

namespace Chip8

/-- The length of a frame in seconds, and the rounding of sums of readings. -/
structure Pacing where
  interval : Rat
  round : Rat → Rat

namespace Pacing

/-- Sixty frames a second, in exact arithmetic. -/
def exact : Pacing := ⟨1 / 60, id⟩

/-- Sixty frames a second, in doubles. -/
def binary64 : Pacing := ⟨Number.binary64 (1 / 60), Number.binary64⟩

/-- When the frame that began at `time` is over. -/
def frameEnd (p : Pacing) (time : Rat) : Rat := p.round (time + p.interval)

/-- A number without its fraction. -/
def truncate (q : Rat) : Int := if q < 0 then q.ceil else q.floor

/-- When the figures are next due after a report at `time`: at the next whole second. -/
def nextReport (p : Pacing) (time : Rat) : Rat := p.round (truncate time + 1)

end Pacing

/-- The figures of one report: frames and instructions since the report before. -/
structure Performance where
  frames : Nat
  instructions : Int
  deriving DecidableEq

/-- What the host does when it is asked for the `n`-th time: how the keypad changes, and whether it
wants to quit. -/
abbrev Host := Nat → Keypad → Keypad × Bool

/-- A host that never touches the keypad and never quits. -/
def Host.idle : Host := fun _ pad => (pad, false)

/-- A session that is running. -/
structure Session where
  machine : Machine
  /-- When the current frame is over; missing when the next reading begins a frame. -/
  waitingUntil : Option Rat
  /-- When the figures are next reported. -/
  reportDue : Rat
  /-- Frames completed since the last report. -/
  pendingFrames : Nat
  /-- How many instructions the machine had completed at the last report. -/
  reported : Nat
  /-- How many frames have been begun. -/
  begun : Nat
  /-- How many readings have been taken. -/
  readings : Nat
  /-- The figures reported, the latest first. -/
  reports : List Performance

namespace Session

/-- A session about to take its first reading. -/
def start (m : Machine) : Session :=
  { machine := m
    waitingUntil := none
    reportDue := 0
    pendingFrames := 0
    reported := m.completed
    begun := 0
    readings := 0
    reports := [] }

/-- The figures since the last report. -/
def pending (s : Session) : Performance :=
  ⟨s.pendingFrames, (s.machine.completed : Int) - s.reported⟩

/-- Reports the figures in the title and starts counting anew. -/
def report (p : Pacing) (time : Rat) (s : Session) : Session :=
  let figures := s.pending
  { s with
    machine := { s.machine with
      screen := s.machine.screen.reportPerformance figures.frames figures.instructions }
    reportDue := p.nextReport time
    pendingFrames := 0
    reported := s.machine.completed
    reports := figures :: s.reports }

/-- Asks the host for its events, and tells whether it wants to quit. -/
def ask (host : Host) (s : Session) : Session × Bool :=
  let (keypad, quit) := host s.begun s.machine.keypad
  ({ s with machine := { s.machine with keypad } }, quit)

/-- Runs one frame and refreshes the display, also when the frame fails. -/
def showFrame (frame : Action Machine Unit) : Action Machine Unit := fun m =>
  match frame m with
  | .ok _ m => Machine.onScreen Screen.refresh m
  | .error e m =>
    match Machine.onScreen Screen.refresh m with
    | .ok _ m => .error e m
    | .error e m => .error e m

/-- Runs the frame that begins at `time`. -/
def runFrame (frame : Action Machine Unit) (p : Pacing) (time : Rat) : Action Session Unit :=
  fun s =>
    match showFrame frame s.machine with
    | .ok _ machine =>
      .ok () { s with
        machine
        begun := s.begun + 1
        pendingFrames := s.pendingFrames + 1
        waitingUntil := some (p.frameEnd time) }
    | .error e machine => .error e { s with machine, begun := s.begun + 1 }

/-- What a session does at a reading that begins a frame. The result tells whether the host wants to
quit. -/
def beginFrame (frame : Action Machine Unit) (p : Pacing) (host : Host) (time : Rat) :
    Action Session Bool := fun s =>
  let s := if s.reportDue ≤ time then s.report p time else s
  match s.ask host with
  | (s, true) => .ok true s
  | (s, false) =>
    match runFrame frame p time s with
    | .ok _ s => .ok false s
    | .error e s => .error e s

/-- What a session does at a reading of the clock, with `frame` as its frame. The result tells
whether the host quits. -/
def onReadingWith (frame : Action Machine Unit) (p : Pacing) (host : Host) (time : Rat) :
    Action Session Bool := fun s =>
  let s := { s with readings := s.readings + 1 }
  match s.waitingUntil with
  | none => beginFrame frame p host time s
  | some frameEnd =>
    if time < frameEnd then .ok false s else .ok false { s with waitingUntil := none }

/-- What a session does at a reading of the clock. -/
def onReading (p : Pacing) (host : Host) (time : Rat) : Action Session Bool :=
  onReadingWith Machine.frame p host time

/-- Takes the readings of a clock, of which `limit` are left, until a reading quits or fails. -/
def run (reading : Rat → Action Session Bool) (clock : Nat → Rat) : (limit : Nat) →
    Action Session Unit
  | 0 => throw .clockExhausted
  | limit + 1 => fun s =>
    match reading (clock s.readings) s with
    | .ok true s => .ok () s
    | .ok false s => run reading clock limit s
    | .error e s => .error e s

/-- The titles that the session has shown, the first one first; `initial` is the one before. -/
def titles (s : Session) (initial : String) : List String :=
  initial :: s.reports.reverse.map fun f => performanceTitle f.frames f.instructions

end Session

end Chip8
