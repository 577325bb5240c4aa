import Chip8.CallStack
import Chip8.Instruction.Decode
import Chip8.Keypad
import Chip8.Random
import Chip8.Screen
import Chip8.Storage.FileSystem
import Chip8.Timers

/-!
# The machine

The parts of a machine: memory, sixteen byte registers and an index register, the program counter,
the call stack, the screen, the timers, the keypad and a source of random bytes; and what a machine
keeps about its own run.

* `Machine.create` builds a machine with a program in memory, or says what is wrong;
* `Machine.onMemory`, `Machine.onStack`, `Machine.onScreen`, `Machine.onKeypad` run an operation on
  one part.
-/

namespace Chip8

/-- A machine. -/
structure Machine where
  memory : Memory
  registers : Vector UInt8 16
  index : Int
  pc : Int
  stack : CallStack
  screen : Screen
  timers : Timers
  keypad : Keypad
  random : RandomSource
  /-- How many instructions a frame runs. -/
  cyclesPerFrame : Int
  /-- The last instruction found no key held, and will be run again. -/
  awaitingKey : Bool
  /-- The fault that halted the machine. -/
  fault : Option Fault
  /-- How many instructions have been completed. -/
  completed : Nat
  /-- The address of the instruction begun last. -/
  begun : Int
  /-- The opcode of the instruction begun last, once it is fetched. -/
  opcode : Option Int
  /-- The instruction decoded last. -/
  instruction : Option Instruction
  /-- Every instruction is reported before it is performed. -/
  live : Bool
  /-- The lines reported so far. -/
  trace : Array String

namespace Machine

/-- How many bytes of memory a machine has. -/
def memorySize : Int := 0x1000

/-- Where the system font begins in memory. -/
def fontLocation : Int := 0x000

/-- Where a program is loaded and started if nothing else is asked for. -/
def defaultStart : Int := 0x200

/-- How many return addresses the call stack holds. -/
def stackDepth : Int := 48

/-- How many instructions a frame runs if nothing else is asked for. -/
def defaultCycles : Int := 20

def screenWidth : Int := 64

def screenHeight : Int := 32

/-- What can be chosen about a machine; what is left out has a default. -/
structure Settings where
  start : Option Int
  cyclesPerFrame : Option Int
  timerReload : Option Int
  live : Bool

/-- Memory at power-on: the font at the bottom, protected, and the program from `start` on. A font
of the wrong size is refused before the program is looked at. -/
def bootMemory (capacity : Nat) (font : List UInt8) (start : Int) (program : List UInt8) :
    Action Memory Unit := do
  Memory.resize capacity memorySize
  match FileSystem.checkFont font with
  | .ok font => Memory.writeBlock fontLocation font
  | .error e => throw e
  Memory.protect (fontLocation + Font.size)
  Memory.loadImage start program

/-- A machine at power-on, about to run the program, with stores that fit in the capacity. Of
several things wrong, a program that cannot be loaded is named before a reload value that is no
byte. -/
def createWithin (capacity : Nat) (program : List UInt8) (keymap : Keymap) (display : Display)
    (random : RandomSource) (settings : Settings) : Except Error Machine :=
  let start := settings.start.getD defaultStart
  match bootMemory capacity Font.glyphs start program (.blank 0) with
  | .error e _ => .error e
  | .ok _ memory => do
    let screen ← Screen.create capacity display screenWidth screenHeight
    let timers ← Timers.create settings.timerReload
    return {
      memory
      registers := Vector.replicate 16 0
      index := 0
      pc := start
      stack := .empty stackDepth
      screen
      timers
      keypad := .released keymap
      random
      cyclesPerFrame := settings.cyclesPerFrame.getD defaultCycles
      awaitingKey := false
      fault := none
      completed := 0
      begun := 0
      opcode := none
      instruction := none
      live := settings.live
      trace := #[] }

/-- How many bytes the largest store of a machine takes: a window's bytes for the screen. -/
def room : Nat := Window.pixelSize * (screenWidth * screenHeight).toNat

/-- A machine at power-on, about to run the program, where there is room for it. -/
def create (program : List UInt8) (keymap : Keymap) (display : Display) (random : RandomSource)
    (settings : Settings) : Except Error Machine :=
  createWithin room program keymap display random settings

/-- Makes the machine go on at `address`, no longer halted or waiting. -/
def reset (address : Int) (m : Machine) : Machine :=
  { m with pc := address, awaitingKey := false, fault := none }

/-- Runs an operation on the memory. -/
@[inline] def onMemory {α : Type} : Action Memory α → Action Machine α :=
  Action.on memory fun m memory => { m with memory }

/-- Runs an operation on the call stack. -/
@[inline] def onStack {α : Type} : Action CallStack α → Action Machine α :=
  Action.on stack fun m stack => { m with stack }

/-- Runs an operation on the screen. -/
@[inline] def onScreen {α : Type} : Action Screen α → Action Machine α :=
  Action.on screen fun m screen => { m with screen }

/-- Runs an operation on the keypad. -/
@[inline] def onKeypad {α : Type} (a : Action Keypad α) : Action Machine α := fun m =>
  match a m.keypad with
  | .ok r keypad => .ok r { m with keypad }
  | .error e keypad => .error e { m with keypad }

variable {α : Type}

theorem onMemory_apply (a : Action Memory α) (m : Machine) :
    onMemory a m = match a m.memory with
      | .ok r memory => .ok r { m with memory }
      | .error e memory => .error e { m with memory } := by
  cases h : a m.memory <;> simp [onMemory, Action.on, h]

theorem onStack_apply (a : Action CallStack α) (m : Machine) :
    onStack a m = match a m.stack with
      | .ok r stack => .ok r { m with stack }
      | .error e stack => .error e { m with stack } := by
  cases h : a m.stack <;> simp [onStack, Action.on, h]

theorem onScreen_apply (a : Action Screen α) (m : Machine) :
    onScreen a m = match a m.screen with
      | .ok r screen => .ok r { m with screen }
      | .error e screen => .error e { m with screen } := by
  cases h : a m.screen <;> simp [onScreen, Action.on, h]

/-- What a register holds. -/
def register (m : Machine) (x : Register) : UInt8 := m.registers.get x

/-- Changes one register. -/
def setRegister (m : Machine) (x : Register) (value : UInt8) : Machine :=
  { m with registers := m.registers.set x value }

/-- The register that the instructions use for flags. -/
def flag : Register := Fin.last 15

/-- The register that a jump with an offset adds. -/
def offset : Register := ⟨0, by decide⟩

/-- Moves the program counter to the next instruction. -/
def advance (m : Machine) : Machine := { m with pc := (m.pc + 2) % 0x10000 }

/-- Moves the program counter back by one instruction. -/
def rewind (m : Machine) : Machine := { m with pc := (m.pc - 2) % 0x10000 }

end Machine

end Chip8
