import Chip8.Proofs.Instruction.Families

/-!
# Decoding inverts encoding

On words of sixteen bits, `Operation.ofOpcode?` picks exactly the operation whose `encode` is the
word, where `0nnn` stands for a call of native code only if it is neither `00E0` nor `00EE`.

* `Operation.ofOpcode?_eq_some_iff` and `Operation.ofOpcode?_eq_none_iff` say this;
* `Operation.instruction` is an operation as the instruction of an opcode, and
  `Instruction.decode?_of_ofOpcode?` says that decoding gives just this instruction.
-/

namespace Chip8

namespace Opcode

variable {w : Int}

theorem address_eq {a : Fin 4096} (h : w % 4096 = a) : address w = a :=
  Fin.ext (by have := coe_address w; omega)

theorem x_eq {r : Register} (h : w / 256 % 16 = r) : x w = r :=
  Fin.ext (by have := coe_x w; omega)

theorem y_eq {r : Register} (h : w / 16 % 16 = r) : y w = r :=
  Fin.ext (by have := coe_y w; omega)

theorem nibble_eq {n : Fin 16} (h : w % 16 = n) : nibble w = n :=
  Fin.ext (by have := coe_nibble w; omega)

theorem family_eq {k : Fin 16} (h : w / 4096 % 16 = k) : family w = k :=
  Fin.ext (by have := coe_family w; omega)

theorem byte_eq {b : UInt8} (h : w % 256 = b.toNat) : byte w = b :=
  UInt8.toNat_inj.1 (by have := toNat_byte w; omega)

/-- A word is spelled by its family and its three operand nibbles. -/
theorem fields_eq (hw : IsWord w) :
    w = 4096 * (family w : Nat) + 256 * (x w : Nat) + 16 * (y w : Nat) + (nibble w : Nat) ∧
      (address w : Nat) = 256 * (x w : Nat) + 16 * (y w : Nat) + (nibble w : Nat) ∧
      (byte w).toNat = 16 * (y w : Nat) + (nibble w : Nat) := by
  obtain ⟨h0, h1⟩ := hw
  have hfamily := coe_family w
  have haddress := coe_address w
  have hx := coe_x w
  have hy := coe_y w
  have hnibble := coe_nibble w
  have hbyte := toNat_byte w
  omega

end Opcode

namespace Operation

/-- The highest nibble of the opcodes of an operation. -/
def family : Operation → Nat
  | .machineCode _ | .clearScreen | .ret => 0x0
  | .jump _ => 0x1
  | .call _ => 0x2
  | .skipIfByte .. => 0x3
  | .skipUnlessByte .. => 0x4
  | .skipIfSame .. => 0x5
  | .loadByte .. => 0x6
  | .addByte .. => 0x7
  | .copy .. | .or .. | .and .. | .xor .. | .add .. | .subtract .. | .shiftRight ..
  | .subtractFrom .. | .shiftLeft .. => 0x8
  | .skipUnlessSame .. => 0x9
  | .loadIndex _ => 0xA
  | .jumpOffset _ => 0xB
  | .random .. => 0xC
  | .draw .. => 0xD
  | .skipIfPressed _ | .skipUnlessPressed _ => 0xE
  | .loadDelay _ | .waitKey _ | .setDelay _ | .setSound _ | .addIndex _ | .loadGlyph _
  | .storeDigits _ | .storeRegisters _ | .loadRegisters _ => 0xF

theorem family_encode (op : Operation) : Opcode.family op.encode = Fin.ofNat 16 op.family := by
  apply Opcode.family_eq
  rw [Fin.val_ofNat]
  cases op with
  | skipIfByte x b | skipUnlessByte x b | loadByte x b | addByte x b | random x b =>
    have := b.toNat_lt
    simp only [encode, family]
    omega
  | _ => simp only [encode, family]; omega

theorem ofFamily?_arithmetic (x y n : Fin 16) {w : Nat}
    (hw : w = 0x8000 + 0x100 * (x : Nat) + 0x10 * (y : Nat) + n) :
    ofFamily? w = arithmetic? x y n := by
  have hword : Opcode.IsWord w := ⟨by omega, by omega⟩
  have hfamily : Opcode.family w = 0x8 := Opcode.family_eq (by omega)
  simp only [ofFamily?, hfamily, if_pos hword]
  rw [Opcode.x_eq (r := x) (by omega), Opcode.y_eq (r := y) (by omega),
    Opcode.nibble_eq (n := n) (by omega)]

theorem ofFamily?_keypad (x : Register) (b : Fin 256) {w : Nat}
    (hw : w = 0xE000 + 0x100 * (x : Nat) + b) : ofFamily? w = keypad? x b := by
  have hword : Opcode.IsWord w := ⟨by omega, by omega⟩
  have hfamily : Opcode.family w = 0xE := Opcode.family_eq (by omega)
  have hbyte : (Opcode.byte w).toNat = b := by
    have := Opcode.toNat_byte w
    omega
  simp only [ofFamily?, hfamily, if_pos hword, hbyte]
  rw [Opcode.x_eq (r := x) (by omega)]

theorem ofFamily?_transfer (x : Register) (b : Fin 256) {w : Nat}
    (hw : w = 0xF000 + 0x100 * (x : Nat) + b) : ofFamily? w = transfer? x b := by
  have hword : Opcode.IsWord w := ⟨by omega, by omega⟩
  have hfamily : Opcode.family w = 0xF := Opcode.family_eq (by omega)
  have hbyte : (Opcode.byte w).toNat = b := by
    have := Opcode.toNat_byte w
    omega
  simp only [ofFamily?, hfamily, if_pos hword, hbyte]
  rw [Opcode.x_eq (r := x) (by omega)]

/-- Each operation is decoded from its opcode, except that `00E0` and `00EE` are no calls of native
code. -/
theorem ofOpcode?_encode {op : Operation}
    (h : ∀ a, op = .machineCode a → (a : Nat) ≠ 0x00E0 ∧ (a : Nat) ≠ 0x00EE) :
    ofOpcode? op.encode = some op := by
  rw [ofOpcode?_eq_ofFamily?]
  cases op with
  | machineCode a =>
    obtain ⟨h1, h2⟩ := h a rfl
    have hw : ((machineCode a).encode : Int) = (a : Nat) := rfl
    unfold ofFamily?
    rw [family_encode]
    simp only [family]
    rw [if_neg (by omega), if_neg (by omega), Opcode.address_eq (a := a) (by omega)]
    rfl
  | clearScreen | ret => rfl
  | jump a | call a | loadIndex a | jumpOffset a =>
    unfold ofFamily?
    rw [family_encode]
    simp only [family, encode]
    rw [Opcode.address_eq (a := a) (by omega)]
    rfl
  | skipIfByte x b | skipUnlessByte x b | loadByte x b | addByte x b | random x b =>
    have := b.toNat_lt
    unfold ofFamily?
    rw [family_encode]
    simp only [family, encode]
    rw [Opcode.x_eq (r := x) (by omega), Opcode.byte_eq (b := b) (by omega)]
    rfl
  | skipIfSame x y n | skipUnlessSame x y n | draw x y n =>
    unfold ofFamily?
    rw [family_encode]
    simp only [family, encode]
    rw [Opcode.x_eq (r := x) (by omega), Opcode.y_eq (r := y) (by omega),
      Opcode.nibble_eq (n := n) (by omega)]
    rfl
  | copy x y => exact ofFamily?_arithmetic x y 0x0 (by simp only [encode]; omega)
  | or x y => exact ofFamily?_arithmetic x y 0x1 (by simp only [encode]; omega)
  | and x y => exact ofFamily?_arithmetic x y 0x2 (by simp only [encode]; omega)
  | xor x y => exact ofFamily?_arithmetic x y 0x3 (by simp only [encode]; omega)
  | add x y => exact ofFamily?_arithmetic x y 0x4 (by simp only [encode]; omega)
  | subtract x y => exact ofFamily?_arithmetic x y 0x5 (by simp only [encode]; omega)
  | shiftRight x y => exact ofFamily?_arithmetic x y 0x6 (by simp only [encode]; omega)
  | subtractFrom x y => exact ofFamily?_arithmetic x y 0x7 (by simp only [encode]; omega)
  | shiftLeft x y => exact ofFamily?_arithmetic x y 0xE (by simp only [encode]; omega)
  | skipIfPressed x => exact ofFamily?_keypad x 0x9E (by simp only [encode]; omega)
  | skipUnlessPressed x => exact ofFamily?_keypad x 0xA1 (by simp only [encode]; omega)
  | loadDelay x => exact ofFamily?_transfer x 0x07 (by simp only [encode]; omega)
  | waitKey x => exact ofFamily?_transfer x 0x0A (by simp only [encode]; omega)
  | setDelay x => exact ofFamily?_transfer x 0x15 (by simp only [encode]; omega)
  | setSound x => exact ofFamily?_transfer x 0x18 (by simp only [encode]; omega)
  | addIndex x => exact ofFamily?_transfer x 0x1E (by simp only [encode]; omega)
  | loadGlyph x => exact ofFamily?_transfer x 0x29 (by simp only [encode]; omega)
  | storeDigits x => exact ofFamily?_transfer x 0x33 (by simp only [encode]; omega)
  | storeRegisters x => exact ofFamily?_transfer x 0x55 (by simp only [encode]; omega)
  | loadRegisters x => exact ofFamily?_transfer x 0x65 (by simp only [encode]; omega)

/-- Encoding gives back the word that an operation was decoded from. -/
theorem encode_of_ofOpcode? {w : Int} (hw : Opcode.IsWord w) {op : Operation}
    (h : ofOpcode? w = some op) : (op.encode : Int) = w := by
  obtain ⟨hnibbles, haddress, hbyte⟩ := Opcode.fields_eq hw
  rw [ofOpcode?_eq_ofFamily?] at h
  simp only [ofFamily?] at h
  generalize Opcode.family w = k at h hnibbles
  generalize Opcode.address w = address at h haddress
  generalize Opcode.x w = x at h hnibbles haddress
  generalize Opcode.y w = y at h hnibbles haddress hbyte
  generalize Opcode.nibble w = nibble at h hnibbles haddress hbyte
  generalize Opcode.byte w = byte at h hbyte
  split at h
  case h_1 => split_ifs at h <;> cases h <;> simp only [encode] <;> omega
  case h_9 =>
    rw [if_pos hw] at h
    unfold arithmetic? at h
    split at h <;> cases h <;> simp only [encode] <;> omega
  case h_15 =>
    rw [if_pos hw] at h
    unfold keypad? at h
    split at h <;> cases h <;> simp only [encode] <;> omega
  case h_16 =>
    have hk : k = 0xF := by grind
    rw [if_pos hw] at h
    unfold transfer? at h
    split at h <;> cases h <;> simp only [encode] <;> omega
  all_goals cases h; simp only [encode]; omega

/-- A word is decoded to the operation that it encodes. -/
theorem ofOpcode?_eq_some_iff {w : Int} (hw : Opcode.IsWord w) {op : Operation} :
    ofOpcode? w = some op ↔
      (op.encode : Int) = w ∧ ∀ a, op = .machineCode a → w ≠ 0x00E0 ∧ w ≠ 0x00EE := by
  constructor
  · intro h
    refine ⟨encode_of_ofOpcode? hw h, ?_⟩
    rintro a rfl
    constructor <;> rintro rfl <;> cases h
  · rintro ⟨rfl, h⟩
    refine ofOpcode?_encode fun a ha => ?_
    obtain ⟨h1, h2⟩ := h a ha
    subst ha
    simp only [encode] at h1 h2
    omega

/-- A word that is not decoded encodes no operation at all. -/
theorem ofOpcode?_eq_none_iff {w : Int} (hw : Opcode.IsWord w) :
    ofOpcode? w = none ↔ ∀ op : Operation, (op.encode : Int) ≠ w := by
  constructor
  · intro h op hop
    by_cases hE0 : w = 0x00E0
    · subst hE0; cases h
    by_cases hEE : w = 0x00EE
    · subst hEE; cases h
    rw [(ofOpcode?_eq_some_iff hw).2 ⟨hop, fun _ _ => ⟨hE0, hEE⟩⟩] at h
    cases h
  · intro h
    cases hop : ofOpcode? w with
    | none => rfl
    | some op => exact absurd (encode_of_ofOpcode? hw hop) (h op)

/-! ### Instructions of operations -/

/-- An operation as the instruction of an opcode. The fields that it takes its operands from hold
these, all others are those of the opcode. -/
def instruction (op : Operation) (w : Int) : Instruction :=
  let i := Instruction.ofKind op.kind w
  match op with
  | .clearScreen | .ret => i
  | .machineCode address | .jump address | .call address | .loadIndex address
  | .jumpOffset address => { i with address }
  | .skipIfByte x byte | .skipUnlessByte x byte | .loadByte x byte | .addByte x byte
  | .random x byte => { i with x, byte }
  | .skipIfSame x y nibble | .skipUnlessSame x y nibble | .draw x y nibble =>
    { i with x, y, nibble }
  | .copy x y | .or x y | .and x y | .xor x y | .add x y | .subtract x y | .shiftRight x y
  | .subtractFrom x y | .shiftLeft x y => { i with x, y }
  | .skipIfPressed x | .skipUnlessPressed x | .loadDelay x | .waitKey x | .setDelay x | .setSound x
  | .addIndex x | .loadGlyph x | .storeDigits x | .storeRegisters x | .loadRegisters x =>
    { i with x }

@[simp] theorem operation_instruction (op : Operation) (w : Int) :
    (op.instruction w).operation = op := by
  cases op <;> rfl

@[simp] theorem opcode_instruction (op : Operation) (w : Int) : (op.instruction w).opcode = w := by
  cases op <;> rfl

theorem instruction_ofKind (k : Kind) (w : Int) :
    (Instruction.ofKind k w).operation.instruction w = Instruction.ofKind k w := by
  cases k <;> rfl

end Operation

namespace Instruction

/-- The instruction of an opcode is made of its operation. -/
theorem decode?_of_ofOpcode? {w : Int} {op : Operation} (h : Operation.ofOpcode? w = some op) :
    decode? w = some (op.instruction w) := by
  obtain ⟨i, hi, rfl⟩ := Option.map_eq_some_iff.1 h
  obtain ⟨k, -, rfl⟩ := decode?_eq_some_iff.1 hi
  rw [hi, Operation.instruction_ofKind]

/-- Each operation other than a call of native code is the one that its opcode stands for. -/
theorem decode?_encode {op : Operation} (h : ∀ a, op ≠ .machineCode a) :
    decode? op.encode = some (op.instruction op.encode) :=
  decode?_of_ofOpcode? (Operation.ofOpcode?_encode fun a ha => absurd ha (h a))

end Instruction

end Chip8
