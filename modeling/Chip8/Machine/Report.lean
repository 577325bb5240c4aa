import Chip8.Machine.Basic

/-!
# Reports on a machine

The state of a machine in one line, as a live trace prints it, and with the stack and the keypad
added, as a fault shows it.
-/

namespace Chip8.Machine

/-- The registers in hexadecimal, the highest first. -/
def registersText (registers : Vector UInt8 16) : String :=
  Text.hexBytes registers.toList.reverse

/-- The opcode in four digits, or dashes before it is fetched. -/
def opcodeText : Option Int → String
  | none => "----"
  | some w => Text.hex 4 w

/-- One line on the machine; `instruction` is the text shown for the current instruction. -/
def line (m : Machine) (instruction : String) : String :=
  "V: 0x" ++ registersText m.registers ++ " I: 0x" ++ Text.hex 4 m.index ++
    " DT: 0x" ++ Text.hex 2 m.timers.delay ++ " ST: 0x" ++ Text.hex 2 m.timers.sound ++
    " PC: 0x" ++ Text.hex 3 m.begun ++ " OP: 0x" ++ opcodeText m.opcode ++ " IN: " ++ instruction

/-- The return addresses, oldest first, each after a blank. -/
def stackText (s : CallStack) : String :=
  if s.returns = [] then " (Empty)"
  else String.join (s.toList.map fun address => " 0x" ++ Text.hex 3 address)

/-- The latched key, if the latch is asserted. -/
def latchText (latch : Latch) : String :=
  if latch.asserted then "0x" ++ Text.hex 1 latch.key else "(None)"

/-- The line on the machine, followed by the stack and the keypad. -/
def dump (m : Machine) (instruction : String) : String :=
  m.line instruction ++ "\nSP: " ++ toString m.stack.size ++ "\nStack:" ++ stackText m.stack ++
    "\nKey: " ++ latchText m.keypad.latch ++ (if m.awaitingKey then " (Waiting)" else "")

/-- What stands for an instruction that is not known. -/
def unknownInstruction : String := "???"

end Chip8.Machine
