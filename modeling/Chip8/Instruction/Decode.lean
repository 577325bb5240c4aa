import Chip8.Error
import Chip8.Instruction.Kind
import Chip8.Instruction.Operation

/-!
# Decoding

From an opcode to the instruction it stands for. An opcode is an integer of any size, of which only
some bits are looked at; the fields of its operands are always at the same place.

* `Opcode.masked` keeps the bits of a mask; `Opcode.address`, `Opcode.x`, `Opcode.y`,
  `Opcode.nibble`, `Opcode.byte` are the fields that are cut out in this way;
* `Operation.Kind.ofOpcode?` picks the operation by the first nibble. Where several operations share
  it, the opcode is masked down to the bits that tell them apart, and the result is looked up;
* `Instruction` keeps an opcode with its operation and all fields; `Instruction.decode?` gives it,
  and `Instruction.decode` says what is wrong otherwise;
* `Instruction.operation` takes the operands of the operation from the fields.
-/

namespace Chip8

namespace Opcode

/-- The bits of an opcode that a mask keeps. A negative number has the bits of its two's complement,
which are ones without end on the left. -/
def masked (w : Int) (mask : Nat) : Nat :=
  match w with
  | .ofNat n => n &&& mask
  | .negSucc n => mask - (n &&& mask)

theorem masked_le (w : Int) (mask : Nat) : masked w mask ≤ mask := by
  cases w with
  | ofNat n => exact Nat.and_le_right
  | negSucc n => exact Nat.sub_le ..

theorem masked_shiftRight_lt {w : Int} {mask k limit : Nat} (h : mask >>> k < limit) :
    masked w mask >>> k < limit := by
  refine Nat.lt_of_le_of_lt ?_ h
  rw [Nat.shiftRight_eq_div_pow, Nat.shiftRight_eq_div_pow]
  exact Nat.div_le_div_right (masked_le w mask)

/-- The lowest twelve bits. -/
def address (w : Int) : Fin 4096 := ⟨masked w 0xFFF, Nat.lt_succ_of_le (masked_le w 0xFFF)⟩

/-- The third nibble from the right. -/
def x (w : Int) : Register := ⟨masked w 0xF00 >>> 8, masked_shiftRight_lt (by decide)⟩

/-- The second nibble from the right. -/
def y (w : Int) : Register := ⟨masked w 0xF0 >>> 4, masked_shiftRight_lt (by decide)⟩

/-- The lowest four bits. -/
def nibble (w : Int) : Fin 16 := ⟨masked w 0xF, Nat.lt_succ_of_le (masked_le w 0xF)⟩

/-- The lowest eight bits. -/
def byte (w : Int) : UInt8 := UInt8.ofNat (masked w 0xFF)

end Opcode

namespace Operation.Kind

/-- Every operation under its opcode without operands. -/
def table : List (Nat × Kind) := all.map fun k => (k.value, k)

/-- The masks of the first nibbles that several operations share. -/
def sharedNibbleMasks : List (Int × Nat) :=
  [(0x0, 0xFFFF), (0x8, 0xF00F), (0xE, 0xF0FF), (0xF, 0xF0FF)]

/-- The bits that tell apart the operations with this first nibble, which may be any integer. All
others only need the nibble itself. -/
def mask (first : Int) : Nat := (sharedNibbleMasks.lookup first).getD 0xF000

/-- The operation of an opcode, if there is one. What begins with zero and is not in the table is a
call of native code. -/
def ofOpcode? (w : Int) : Option Kind :=
  let first := w >>> (12 : Nat)
  match table.lookup (Opcode.masked w (mask first)) with
  | some k => some k
  | none => if first = 0 then some .machineCode else none

end Operation.Kind

/-- An opcode, the operation it stands for, and its fields. -/
structure Instruction where
  kind : Operation.Kind
  opcode : Int
  address : Fin 4096
  x : Register
  y : Register
  nibble : Fin 16
  byte : UInt8
  deriving DecidableEq

namespace Instruction

/-- The instruction of an opcode whose operation is known: all fields are cut out. -/
def ofKind (kind : Operation.Kind) (w : Int) : Instruction where
  kind := kind
  opcode := w
  address := Opcode.address w
  x := Opcode.x w
  y := Opcode.y w
  nibble := Opcode.nibble w
  byte := Opcode.byte w

/-- The operation with those fields that are its operands. -/
def operation (i : Instruction) : Operation :=
  match i.kind with
  | .machineCode => .machineCode i.address
  | .clearScreen => .clearScreen
  | .ret => .ret
  | .jump => .jump i.address
  | .call => .call i.address
  | .skipIfByte => .skipIfByte i.x i.byte
  | .skipUnlessByte => .skipUnlessByte i.x i.byte
  | .skipIfSame => .skipIfSame i.x i.y i.nibble
  | .loadByte => .loadByte i.x i.byte
  | .addByte => .addByte i.x i.byte
  | .copy => .copy i.x i.y
  | .or => .or i.x i.y
  | .and => .and i.x i.y
  | .xor => .xor i.x i.y
  | .add => .add i.x i.y
  | .subtract => .subtract i.x i.y
  | .shiftRight => .shiftRight i.x i.y
  | .subtractFrom => .subtractFrom i.x i.y
  | .shiftLeft => .shiftLeft i.x i.y
  | .skipUnlessSame => .skipUnlessSame i.x i.y i.nibble
  | .loadIndex => .loadIndex i.address
  | .jumpOffset => .jumpOffset i.address
  | .random => .random i.x i.byte
  | .draw => .draw i.x i.y i.nibble
  | .skipIfPressed => .skipIfPressed i.x
  | .skipUnlessPressed => .skipUnlessPressed i.x
  | .loadDelay => .loadDelay i.x
  | .waitKey => .waitKey i.x
  | .setDelay => .setDelay i.x
  | .setSound => .setSound i.x
  | .addIndex => .addIndex i.x
  | .loadGlyph => .loadGlyph i.x
  | .storeDigits => .storeDigits i.x
  | .storeRegisters => .storeRegisters i.x
  | .loadRegisters => .loadRegisters i.x

/-- The instruction of an opcode, if there is one. -/
def decode? (w : Int) : Option Instruction := (Operation.Kind.ofOpcode? w).map fun k => ofKind k w

/-- The instruction of an opcode; one that has none is a fault. -/
def decode (w : Int) : Except Error Instruction :=
  match decode? w with
  | some i => .ok i
  | none => .error (.fault (.ofCause (.undecodable w)))

def mnemonic (i : Instruction) : String := i.operation.mnemonic

end Instruction

/-- The operation of an opcode, with its operands, if there is one. -/
def Operation.ofOpcode? (w : Int) : Option Operation :=
  (Instruction.decode? w).map Instruction.operation

namespace Instruction

theorem decode?_eq_some_iff {w : Int} {i : Instruction} :
    decode? w = some i ↔ ∃ k, Operation.Kind.ofOpcode? w = some k ∧ ofKind k w = i :=
  Option.map_eq_some_iff

@[simp] theorem decode?_eq_none_iff {w : Int} :
    decode? w = none ↔ Operation.ofOpcode? w = none :=
  Option.map_eq_none_iff.symm

theorem decode_eq_ok_iff {w : Int} {i : Instruction} : decode w = .ok i ↔ decode? w = some i := by
  unfold decode
  cases decode? w <;> simp

/-- An instruction does what its opcode stands for, and keeps the opcode. -/
theorem of_decode?_eq_some {w : Int} {i : Instruction} (h : decode? w = some i) :
    Operation.ofOpcode? w = some i.operation ∧ i.opcode = w := by
  obtain ⟨k, -, rfl⟩ := decode?_eq_some_iff.1 h
  exact ⟨by rw [Operation.ofOpcode?, h, Option.map_some], rfl⟩

end Instruction

end Chip8
