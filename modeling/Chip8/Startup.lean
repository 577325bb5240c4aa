import Chip8.Options
import Chip8.Session
import Chip8.Storage.FileSystem

/-!
# Startup

From the options to a running machine. The stages come in a fixed order, and the first one that
fails decides the error: the renderer, the program, the display, the keymap, and then the machine
itself. Nothing runs before all of them have passed.

* `Startup.prepare` goes through the stages;
* `Startup.launch` runs the machine on a clock, and keeps all that was printed.
-/

namespace Chip8.Startup

/-- The two ways of showing the screen. -/
inductive Renderer
  | windowed
  | headless
  deriving DecidableEq

/-- The renderer that is asked for. One with a window needs a window system. -/
def chooseRenderer (windowSystem : Bool) : Given String → Except Error Renderer
  | .unset => if windowSystem then .ok .windowed else .error .noWindowSystem
  | .blank => .error (.unknownRenderer "[]")
  | .value name =>
    if name = windowedName then
      if windowSystem then .ok .windowed else .error .noWindowSystem
    else if name = headlessName then .ok .headless
    else .error (.unknownRenderer name)

/-- The display of a renderer. Only a window makes use of its scale. -/
def openDisplay : Renderer → Given Int → Except Error Display
  | .headless, scale => .ok (.headless scale.value?)
  | .windowed, scale => (scale.optionalValue .scale).bind Display.windowed

/-- The keymap that is asked for; there is no default at this stage. -/
def chooseKeymap (text : Given String) : Except Error Keymap := do
  let text ← text.requireValue .keymap
  (Keymap.parse text).mapError .keymap

/-- A machine ready to run, with the number of instructions in a frame as it was asked for. -/
structure Prepared where
  machine : Machine
  cycles : Given Int

/-- Builds the machine. A program that cannot be loaded is named before a reload value that cannot
be used. -/
def build (program : List UInt8) (keymap : Keymap) (display : Display) (random : RandomSource)
    (live : Bool) (start cycles timerReload : Given Int) : Except Error Machine := do
  let start ← start.optionalValue .start
  let settings := ⟨start, cycles.value?, timerReload.value?, live⟩
  let machine ← Machine.create program keymap display random settings
  let _ ← timerReload.optionalValue .timerReload
  return machine

/-- Goes through all stages of a start. -/
def prepare (fs : FileSystem) (windowSystem : Bool) (random : RandomSource) (o : Options) :
    Except Error Prepared := do
  let renderer ← chooseRenderer windowSystem (← require .renderer o.renderer)
  let filename ← (← require .filename o.filename).requireValue .filename
  let program ← fs.readProgram filename
  let display ← openDisplay renderer (← require .scale o.scale)
  let keymap ← chooseKeymap (← require .keymap o.keymap)
  let debug ← require .debug o.debug
  let start ← require .start o.start
  let cycles ← require .cycles o.cycles
  let timerReload ← require .timerReload o.timerReload
  let machine ←
    build program keymap display random (debug.value?.getD false) start cycles timerReload
  return ⟨machine, cycles⟩

/-- How a run ended, and the lines that were printed. -/
structure Outcome where
  printed : List String
  error : Option Error

/-- One frame of a prepared machine. Without a number of instructions it fails as soon as it begins,
but for a machine that is halted already, which says so first. -/
def Prepared.frame (p : Prepared) : Action Machine Unit := fun m =>
  if p.cycles = .blank ∧ m.fault = none then .error (.blankOption .cycles) m else m.frame

/-- What a session of a prepared machine does at a reading. -/
def Prepared.onReading (p : Prepared) (pacing : Pacing) (host : Host) (time : Rat) :
    Action Session Bool :=
  Session.onReadingWith p.frame pacing host time

/-- The whole program: the banner, the stages of the start, and the run. -/
def launch (fs : FileSystem) (windowSystem : Bool) (random : RandomSource) (o : Options)
    (pacing : Pacing) (host : Host) (clock : Nat → Rat) (limit : Nat) : Outcome :=
  match prepare fs windowSystem random o with
  | .error e => ⟨[banner], some e⟩
  | .ok p =>
    match Session.run (p.onReading pacing host) clock limit (.start p.machine) with
    | .ok _ s => ⟨banner :: s.machine.trace.toList, none⟩
    | .error e s => ⟨banner :: s.machine.trace.toList, some e⟩

end Chip8.Startup
