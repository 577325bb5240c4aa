import Chip8.Instruction.Kind
import Chip8.Text.Hex

/-!
# Operations

The thirty-five operations of the machine, each with the operands that its opcode carries, also
those that running it ignores: `kind` forgets the operands, `encode` gives back the whole opcode,
`mnemonic` shows the operands that matter.
-/

namespace Chip8

/-- The number of a register. -/
abbrev Register := Fin 16

/-- What an instruction does, with its operands. -/
inductive Operation
  /-- `0nnn`, a call of native code. -/
  | machineCode (address : Fin 4096)
  /-- `00E0` -/
  | clearScreen
  /-- `00EE` -/
  | ret
  /-- `1nnn` -/
  | jump (address : Fin 4096)
  /-- `2nnn` -/
  | call (address : Fin 4096)
  /-- `3xkk` -/
  | skipIfByte (x : Register) (byte : UInt8)
  /-- `4xkk` -/
  | skipUnlessByte (x : Register) (byte : UInt8)
  /-- `5xyN`, the last nibble of which is ignored. -/
  | skipIfSame (x y : Register) (nibble : Fin 16)
  /-- `6xkk` -/
  | loadByte (x : Register) (byte : UInt8)
  /-- `7xkk` -/
  | addByte (x : Register) (byte : UInt8)
  /-- `8xy0` -/
  | copy (x y : Register)
  /-- `8xy1` -/
  | or (x y : Register)
  /-- `8xy2` -/
  | and (x y : Register)
  /-- `8xy3` -/
  | xor (x y : Register)
  /-- `8xy4` -/
  | add (x y : Register)
  /-- `8xy5` -/
  | subtract (x y : Register)
  /-- `8xy6`, which ignores `y`. -/
  | shiftRight (x y : Register)
  /-- `8xy7` -/
  | subtractFrom (x y : Register)
  /-- `8xyE`, which ignores `y`. -/
  | shiftLeft (x y : Register)
  /-- `9xyN`, the last nibble of which is ignored. -/
  | skipUnlessSame (x y : Register) (nibble : Fin 16)
  /-- `Annn` -/
  | loadIndex (address : Fin 4096)
  /-- `Bnnn` -/
  | jumpOffset (address : Fin 4096)
  /-- `Cxkk` -/
  | random (x : Register) (byte : UInt8)
  /-- `DxyN` -/
  | draw (x y : Register) (rows : Fin 16)
  /-- `Ex9E` -/
  | skipIfPressed (x : Register)
  /-- `ExA1` -/
  | skipUnlessPressed (x : Register)
  /-- `Fx07` -/
  | loadDelay (x : Register)
  /-- `Fx0A` -/
  | waitKey (x : Register)
  /-- `Fx15` -/
  | setDelay (x : Register)
  /-- `Fx18` -/
  | setSound (x : Register)
  /-- `Fx1E` -/
  | addIndex (x : Register)
  /-- `Fx29` -/
  | loadGlyph (x : Register)
  /-- `Fx33` -/
  | storeDigits (x : Register)
  /-- `Fx55` -/
  | storeRegisters (x : Register)
  /-- `Fx65` -/
  | loadRegisters (x : Register)
  deriving DecidableEq

namespace Operation

/-- Which of the thirty-five operations it is. -/
def kind : Operation → Kind
  | .machineCode _ => .machineCode
  | .clearScreen => .clearScreen
  | .ret => .ret
  | .jump _ => .jump
  | .call _ => .call
  | .skipIfByte .. => .skipIfByte
  | .skipUnlessByte .. => .skipUnlessByte
  | .skipIfSame .. => .skipIfSame
  | .loadByte .. => .loadByte
  | .addByte .. => .addByte
  | .copy .. => .copy
  | .or .. => .or
  | .and .. => .and
  | .xor .. => .xor
  | .add .. => .add
  | .subtract .. => .subtract
  | .shiftRight .. => .shiftRight
  | .subtractFrom .. => .subtractFrom
  | .shiftLeft .. => .shiftLeft
  | .skipUnlessSame .. => .skipUnlessSame
  | .loadIndex _ => .loadIndex
  | .jumpOffset _ => .jumpOffset
  | .random .. => .random
  | .draw .. => .draw
  | .skipIfPressed _ => .skipIfPressed
  | .skipUnlessPressed _ => .skipUnlessPressed
  | .loadDelay _ => .loadDelay
  | .waitKey _ => .waitKey
  | .setDelay _ => .setDelay
  | .setSound _ => .setSound
  | .addIndex _ => .addIndex
  | .loadGlyph _ => .loadGlyph
  | .storeDigits _ => .storeDigits
  | .storeRegisters _ => .storeRegisters
  | .loadRegisters _ => .loadRegisters

/-- The opcode of an operation. -/
def encode : Operation → Nat
  | .machineCode a => a
  | .clearScreen => 0x00E0
  | .ret => 0x00EE
  | .jump a => 0x1000 + a
  | .call a => 0x2000 + a
  | .skipIfByte x b => 0x3000 + 0x100 * x + b.toNat
  | .skipUnlessByte x b => 0x4000 + 0x100 * x + b.toNat
  | .skipIfSame x y n => 0x5000 + 0x100 * x + 0x10 * y + n
  | .loadByte x b => 0x6000 + 0x100 * x + b.toNat
  | .addByte x b => 0x7000 + 0x100 * x + b.toNat
  | .copy x y => 0x8000 + 0x100 * x + 0x10 * y
  | .or x y => 0x8001 + 0x100 * x + 0x10 * y
  | .and x y => 0x8002 + 0x100 * x + 0x10 * y
  | .xor x y => 0x8003 + 0x100 * x + 0x10 * y
  | .add x y => 0x8004 + 0x100 * x + 0x10 * y
  | .subtract x y => 0x8005 + 0x100 * x + 0x10 * y
  | .shiftRight x y => 0x8006 + 0x100 * x + 0x10 * y
  | .subtractFrom x y => 0x8007 + 0x100 * x + 0x10 * y
  | .shiftLeft x y => 0x800E + 0x100 * x + 0x10 * y
  | .skipUnlessSame x y n => 0x9000 + 0x100 * x + 0x10 * y + n
  | .loadIndex a => 0xA000 + a
  | .jumpOffset a => 0xB000 + a
  | .random x b => 0xC000 + 0x100 * x + b.toNat
  | .draw x y n => 0xD000 + 0x100 * x + 0x10 * y + n
  | .skipIfPressed x => 0xE09E + 0x100 * x
  | .skipUnlessPressed x => 0xE0A1 + 0x100 * x
  | .loadDelay x => 0xF007 + 0x100 * x
  | .waitKey x => 0xF00A + 0x100 * x
  | .setDelay x => 0xF015 + 0x100 * x
  | .setSound x => 0xF018 + 0x100 * x
  | .addIndex x => 0xF01E + 0x100 * x
  | .loadGlyph x => 0xF029 + 0x100 * x
  | .storeDigits x => 0xF033 + 0x100 * x
  | .storeRegisters x => 0xF055 + 0x100 * x
  | .loadRegisters x => 0xF065 + 0x100 * x

/-- A register in a mnemonic. -/
def registerText (x : Register) : String := "V" ++ Text.hex 1 x

/-- An address in a mnemonic. -/
def addressText (a : Fin 4096) : String := "0x" ++ Text.hex 3 a

/-- A byte in a mnemonic. -/
def byteText (b : UInt8) : String := "0x" ++ Text.hex 2 b.toNat

/-- A name with one register as its operand. -/
def unary (name : String) (x : Register) : String := name ++ " " ++ registerText x

/-- A name with two registers as its operands. -/
def binary (name : String) (x y : Register) : String := unary name x ++ ", " ++ registerText y

/-- A name with a register and a byte as its operands. -/
def immediate (name : String) (x : Register) (b : UInt8) : String :=
  unary name x ++ ", " ++ byteText b

/-- The operation in assembly language. -/
def mnemonic : Operation → String
  | .machineCode a => "SYS " ++ addressText a
  | .clearScreen => "CLS"
  | .ret => "RET"
  | .jump a => "JP " ++ addressText a
  | .call a => "CALL " ++ addressText a
  | .skipIfByte x b => immediate "SE" x b
  | .skipUnlessByte x b => immediate "SNE" x b
  | .skipIfSame x y _ => binary "SE" x y
  | .loadByte x b => immediate "LD" x b
  | .addByte x b => immediate "ADD" x b
  | .copy x y => binary "LD" x y
  | .or x y => binary "OR" x y
  | .and x y => binary "AND" x y
  | .xor x y => binary "XOR" x y
  | .add x y => binary "ADD" x y
  | .subtract x y => binary "SUB" x y
  | .shiftRight x _ => unary "SHR" x
  | .subtractFrom x y => binary "SUBN" x y
  | .shiftLeft x _ => unary "SHL" x
  | .skipUnlessSame x y _ => binary "SNE" x y
  | .loadIndex a => "LD I, " ++ addressText a
  | .jumpOffset a => "JP V0, " ++ addressText a
  | .random x b => immediate "RND" x b
  | .draw x y n => binary "DRW" x y ++ ", 0x" ++ Text.hex 1 n
  | .skipIfPressed x => unary "SKP" x
  | .skipUnlessPressed x => unary "SKNP" x
  | .loadDelay x => unary "LD" x ++ ", DT"
  | .waitKey x => unary "LD" x ++ ", K"
  | .setDelay x => unary "LD DT," x
  | .setSound x => unary "LD ST," x
  | .addIndex x => unary "ADD I," x
  | .loadGlyph x => unary "LD F," x
  | .storeDigits x => unary "LD B," x
  | .storeRegisters x => unary "LD [I]," x
  | .loadRegisters x => unary "LD" x ++ ", [I]"

theorem encode_lt (op : Operation) : op.encode < 0x10000 := by
  cases op with
  | skipIfByte x b | skipUnlessByte x b | loadByte x b | addByte x b | random x b =>
    have := b.toNat_lt
    simp only [encode]
    omega
  | _ => simp only [encode]; omega

end Operation

end Chip8
