/-!
# Kinds of operations

The thirty-five operations without their operands, and the opcode that each of them has when all
bits of its operands are zero.
-/

namespace Chip8.Operation

/-- Which of the thirty-five operations an instruction is. -/
inductive Kind
  | machineCode
  | clearScreen
  | ret
  | jump
  | call
  | skipIfByte
  | skipUnlessByte
  | skipIfSame
  | loadByte
  | addByte
  | copy
  | or
  | and
  | xor
  | add
  | subtract
  | shiftRight
  | subtractFrom
  | shiftLeft
  | skipUnlessSame
  | loadIndex
  | jumpOffset
  | random
  | draw
  | skipIfPressed
  | skipUnlessPressed
  | loadDelay
  | waitKey
  | setDelay
  | setSound
  | addIndex
  | loadGlyph
  | storeDigits
  | storeRegisters
  | loadRegisters
  deriving DecidableEq

namespace Kind

/-- The opcode of an operation without its operands. -/
def value : Kind → Nat
  | .machineCode => 0x0000
  | .clearScreen => 0x00E0
  | .ret => 0x00EE
  | .jump => 0x1000
  | .call => 0x2000
  | .skipIfByte => 0x3000
  | .skipUnlessByte => 0x4000
  | .skipIfSame => 0x5000
  | .loadByte => 0x6000
  | .addByte => 0x7000
  | .copy => 0x8000
  | .or => 0x8001
  | .and => 0x8002
  | .xor => 0x8003
  | .add => 0x8004
  | .subtract => 0x8005
  | .shiftRight => 0x8006
  | .subtractFrom => 0x8007
  | .shiftLeft => 0x800E
  | .skipUnlessSame => 0x9000
  | .loadIndex => 0xA000
  | .jumpOffset => 0xB000
  | .random => 0xC000
  | .draw => 0xD000
  | .skipIfPressed => 0xE09E
  | .skipUnlessPressed => 0xE0A1
  | .loadDelay => 0xF007
  | .waitKey => 0xF00A
  | .setDelay => 0xF015
  | .setSound => 0xF018
  | .addIndex => 0xF01E
  | .loadGlyph => 0xF029
  | .storeDigits => 0xF033
  | .storeRegisters => 0xF055
  | .loadRegisters => 0xF065

/-- All kinds, in the order of their opcodes. -/
def all : List Kind :=
  [machineCode, clearScreen, ret, jump, call, skipIfByte, skipUnlessByte, skipIfSame, loadByte,
    addByte, copy, or, and, xor, add, subtract, shiftRight, subtractFrom, shiftLeft,
    skipUnlessSame, loadIndex, jumpOffset, random, draw, skipIfPressed, skipUnlessPressed,
    loadDelay, waitKey, setDelay, setSound, addIndex, loadGlyph, storeDigits, storeRegisters,
    loadRegisters]

end Kind

end Chip8.Operation
