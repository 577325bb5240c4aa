import Chip8.Machine.Report

/-!
# Performing instructions

What each of the thirty-five operations does to a machine whose program counter is already at the
next instruction.

* `Machine.perform` performs one instruction;
* `Machine.execute` decodes an opcode, reports it when the trace is live, and performs it.

Operations that cannot fail are functions on machines; the others are actions, and check before
they change anything.
-/

namespace Chip8.Machine

/-- Halts at an opcode that cannot be run, with a report on the machine as it is. -/
def unsupported (reason : Unsupported) (opcode : Int) : Action Machine Unit := do
  let m ← get
  throw <| .fault
    { cause := .unsupported reason opcode m.begun (m.dump unknownInstruction)
      address := some m.begun
      opcode := some opcode }

/-- Skips the next instruction if `c` holds. -/
def skipIf (c : Bool) (m : Machine) : Machine := if c then m.advance else m

/-- Stores a result, and then a flag; if both go to one register, the flag stays. -/
def setWithFlag (m : Machine) (x : Register) (value : UInt8) (f : Bool) : Machine :=
  (m.setRegister x value).setRegister flag (if f then 1 else 0)

/-- Adds two registers; the flag tells of a carry. -/
def addRegisters (x y : Register) (m : Machine) : Machine :=
  m.setWithFlag x (m.register x + m.register y)
    (256 ≤ (m.register x).toNat + (m.register y).toNat)

/-- Subtracts `y` from `x`; the flag tells that nothing was borrowed. -/
def subtractRegisters (x y : Register) (m : Machine) : Machine :=
  m.setWithFlag x (m.register x - m.register y) (m.register y ≤ m.register x)

/-- Subtracts `x` from `y`; the flag tells that nothing was borrowed. -/
def subtractFromRegisters (x y : Register) (m : Machine) : Machine :=
  m.setWithFlag x (m.register y - m.register x) (m.register x ≤ m.register y)

/-- Halves a register; the flag is the bit shifted out. -/
def shiftRight (x : Register) (m : Machine) : Machine :=
  m.setWithFlag x (m.register x >>> 1) ((m.register x).toNat % 2 = 1)

/-- Doubles a register; the flag is the bit shifted out. -/
def shiftLeft (x : Register) (m : Machine) : Machine :=
  m.setWithFlag x (m.register x <<< 1) (128 ≤ (m.register x).toNat)

/-- Stores a random byte, of which only the bits set in `mask` are kept. -/
def drawRandom (x : Register) (mask : UInt8) (m : Machine) : Machine :=
  { m with random := m.random.advance }.setRegister x (m.random.next &&& mask)

/-- Samples the keypad. -/
def refreshKeypad (m : Machine) : Machine := { m with keypad := m.keypad.refresh }

/-- Whether the latched key is the one that a register names. -/
def registerPressed (m : Machine) (x : Register) : Bool := m.keypad.isPressed (m.register x).toNat

/-- Stores the key that is held. If none is, goes back, so that the instruction runs again. -/
def waitKey (x : Register) (m : Machine) : Machine :=
  let m := m.refreshKeypad
  if m.keypad.latch.asserted then
    { m.setRegister x (UInt8.ofNat m.keypad.latch.key) with awaitingKey := false }
  else { m.rewind with awaitingKey := true }

/-- Stores a number in a register, if it fits. -/
def store (x : Register) (value : Int) : Action Machine Unit :=
  if 0 ≤ value ∧ value < 256 then modify fun m => m.setRegister x (UInt8.ofNat value.toNat)
  else throw (.notAByte value)

/-- Draws a sprite from memory; the flag tells that a lit pixel was turned off. The sprite is read
first, so that nothing is drawn when its address is bad. -/
def drawSprite (x y : Register) (rows : Fin 16) : Action Machine Unit := do
  let m ← get
  let sprite ← onMemory (Memory.readBlock m.index rows)
  let collided ← onScreen (Screen.drawSprite (m.register x).toNat (m.register y).toNat sprite)
  modify fun m => m.setRegister flag (if collided then 1 else 0)

/-- The hundreds, tens and ones of a byte. -/
def decimalDigits (b : UInt8) : List UInt8 := [b / 100, b / 10 % 10, b % 10]

/-- Writes the decimal digits of a register to memory. -/
def storeDigits (x : Register) : Action Machine Unit := do
  let m ← get
  onMemory (Memory.writeBlock m.index (decimalDigits (m.register x)))

/-- Writes the registers up to `x` to memory. -/
def storeRegisters (x : Register) : Action Machine Unit := do
  let m ← get
  onMemory (Memory.writeBlock m.index (m.registers.toList.take (x + 1)))

/-- Fills the registers from the first one on. -/
def fillRegisters (bytes : List UInt8) (m : Machine) : Machine :=
  { m with registers := Vector.ofFn fun r => bytes.getD r (m.register r) }

/-- Reads the registers up to `x` from memory. -/
def loadRegisters (x : Register) : Action Machine Unit := do
  let m ← get
  let bytes ← onMemory (Memory.readBlock m.index (x + 1))
  modify (fillRegisters bytes)

/-- Performs an instruction. -/
def perform (i : Instruction) : Action Machine Unit :=
  match i.operation with
  | .machineCode _ => unsupported .nativeRoutine i.opcode
  | .clearScreen => onScreen Screen.clear
  | .ret => do
    let address ← onStack CallStack.pop
    modify fun m => { m with pc := address }
  | .jump address => modify fun m => { m with pc := address }
  | .call address => do
    onStack (CallStack.push (← get).pc)
    modify fun m => { m with pc := address }
  | .skipIfByte x byte => modify fun m => m.skipIf (m.register x == byte)
  | .skipUnlessByte x byte => modify fun m => m.skipIf (m.register x != byte)
  | .skipIfSame x y _ => modify fun m => m.skipIf (m.register x == m.register y)
  | .loadByte x byte => modify fun m => m.setRegister x byte
  | .addByte x byte => modify fun m => m.setRegister x (m.register x + byte)
  | .copy x y => modify fun m => m.setRegister x (m.register y)
  | .or x y => modify fun m => m.setRegister x (m.register x ||| m.register y)
  | .and x y => modify fun m => m.setRegister x (m.register x &&& m.register y)
  | .xor x y => modify fun m => m.setRegister x (m.register x ^^^ m.register y)
  | .add x y => modify (addRegisters x y)
  | .subtract x y => modify (subtractRegisters x y)
  | .shiftRight x _ => modify (shiftRight x)
  | .subtractFrom x y => modify (subtractFromRegisters x y)
  | .shiftLeft x _ => modify (shiftLeft x)
  | .skipUnlessSame x y _ => modify fun m => m.skipIf (m.register x != m.register y)
  | .loadIndex address => modify fun m => { m with index := address }
  | .jumpOffset address => modify fun m => { m with pc := address + (m.register offset).toNat }
  | .random x mask => modify (drawRandom x mask)
  | .draw x y rows => drawSprite x y rows
  | .skipIfPressed x => modify fun m =>
    let m := m.refreshKeypad
    m.skipIf (m.registerPressed x)
  | .skipUnlessPressed x => modify fun m =>
    let m := m.refreshKeypad
    m.skipIf (!m.registerPressed x)
  | .loadDelay x => do store x (← get).timers.delay
  | .waitKey x => modify (waitKey x)
  | .setDelay x => modify fun m =>
    { m with timers := { m.timers with delay := (m.register x).toNat } }
  | .setSound x => modify fun m =>
    { m with timers := { m.timers with sound := (m.register x).toNat } }
  | .addIndex x => modify fun m => { m with index := (m.index + (m.register x).toNat) % 0x10000 }
  | .loadGlyph x => modify fun m =>
    { m with index := fontLocation + Font.glyphSize * ((m.register x).toNat % 16 : Nat) }
  | .storeDigits x => storeDigits x
  | .storeRegisters x => storeRegisters x
  | .loadRegisters x => loadRegisters x

/-- Adds a line on the machine to the trace. -/
def report (i : Instruction) (m : Machine) : Machine :=
  { m with trace := m.trace.push (m.line i.mnemonic) }

/-- Decodes an opcode and performs its instruction. -/
def execute (opcode : Int) : Action Machine Unit := do
  modify fun m => { m with opcode := some opcode }
  match Instruction.decode? opcode with
  | none => unsupported .notAnInstruction opcode
  | some i =>
    modify fun m => { m with instruction := some i }
    if (← get).live then modify (report i)
    perform i

end Chip8.Machine
