import Chip8.Proofs.Instruction.Encode
import Mathlib.Data.Fintype.Basic
import Mathlib.Data.List.Forall2
import Mathlib.Tactic.FinCases

/-!
# Decoding by patterns

The table of the thirty-five patterns, such as `8xy4`, as another way to say what decoding does.

* `Operation.Kind.pattern` is the table, and `Opcode.Matches` says that an opcode has the digits of a
  pattern; `Operation.Kind.Suits` adds that `00E0` and `00EE` are no calls of native code;
* `Operation.operandBits` are the operands of an operation in their places in the opcode;
* `Operation.Kind.leading` lists the operations that are left when only the family of an opcode
  counts;
* `Instruction.decode_by_pattern` says that decoding goes by the patterns on words of sixteen bits,
  and by the family alone on all other integers.
-/

namespace Chip8

namespace Opcode

/-- The four lowest digits of an opcode, the highest of them first. -/
def digits (w : Int) : List Int := [w / 4096 % 16, w / 256 % 16, w / 16 % 16, w % 16]

theorem digits_eq (w : Int) :
    digits w = [((family w : Nat) : Int), ((x w : Nat) : Int), ((y w : Nat) : Int),
      ((nibble w : Nat) : Int)] := by
  rw [coe_family, coe_x, coe_y, coe_nibble]
  rfl

/-- The value of a digit that a pattern prescribes. Its other characters stand for any digit. -/
def prescribed? (c : Char) : Option Int :=
  if c.isDigit then some (c.toNat - '0'.toNat)
  else if 'A' ≤ c ∧ c ≤ 'F' then some (c.toNat - 'A'.toNat + 10)
  else none

/-- The opcode has all the digits that a pattern prescribes. -/
def Matches (w : Int) (pattern : String) : Prop :=
  List.Forall₂ (fun c d => ∀ k, prescribed? c = some k → d = k) pattern.toList (digits w)

end Opcode

namespace Operation

namespace Kind

/-- The pattern of an operation's opcodes. Digits stand for themselves and letters beyond `F` for
the digits of operands. -/
def pattern : Kind → String
  | .machineCode => "0nnn"
  | .clearScreen => "00E0"
  | .ret => "00EE"
  | .jump => "1nnn"
  | .call => "2nnn"
  | .skipIfByte => "3xkk"
  | .skipUnlessByte => "4xkk"
  | .skipIfSame => "5xyN"
  | .loadByte => "6xkk"
  | .addByte => "7xkk"
  | .copy => "8xy0"
  | .or => "8xy1"
  | .and => "8xy2"
  | .xor => "8xy3"
  | .add => "8xy4"
  | .subtract => "8xy5"
  | .shiftRight => "8xy6"
  | .subtractFrom => "8xy7"
  | .shiftLeft => "8xyE"
  | .skipUnlessSame => "9xyN"
  | .loadIndex => "Annn"
  | .jumpOffset => "Bnnn"
  | .random => "Cxkk"
  | .draw => "Dxyn"
  | .skipIfPressed => "Ex9E"
  | .skipUnlessPressed => "ExA1"
  | .loadDelay => "Fx07"
  | .waitKey => "Fx0A"
  | .setDelay => "Fx15"
  | .setSound => "Fx18"
  | .addIndex => "Fx1E"
  | .loadGlyph => "Fx29"
  | .storeDigits => "Fx33"
  | .storeRegisters => "Fx55"
  | .loadRegisters => "Fx65"

/-- The opcode is one of the operation. All opcodes `0nnn` call native code, but for the two that
have a pattern of their own. -/
def Suits (k : Kind) (w : Int) : Prop :=
  Opcode.Matches w k.pattern ∧
    (k = machineCode →
      ¬ Opcode.Matches w clearScreen.pattern ∧ ¬ Opcode.Matches w ret.pattern)

/-- The operations that the families `0` to `D` stand for when nothing else of an opcode counts. -/
def leading : List Kind :=
  [machineCode, jump, call, skipIfByte, skipUnlessByte, skipIfSame, loadByte, addByte, copy,
    skipUnlessSame, loadIndex, jumpOffset, random, draw]

end Kind

/-- The operands of an operation, each in its place in the opcode. -/
def operandBits : Operation → Nat
  | .clearScreen | .ret => 0
  | .machineCode a | .jump a | .call a | .loadIndex a | .jumpOffset a => a
  | .skipIfByte x b | .skipUnlessByte x b | .loadByte x b | .addByte x b | .random x b =>
    0x100 * x + b.toNat
  | .skipIfSame x y n | .skipUnlessSame x y n | .draw x y n => 0x100 * x + 0x10 * y + n
  | .copy x y | .or x y | .and x y | .xor x y | .add x y | .subtract x y | .shiftRight x y
  | .subtractFrom x y | .shiftLeft x y => 0x100 * x + 0x10 * y
  | .skipIfPressed x | .skipUnlessPressed x | .loadDelay x | .waitKey x | .setDelay x | .setSound x
  | .addIndex x | .loadGlyph x | .storeDigits x | .storeRegisters x | .loadRegisters x =>
    0x100 * x

/-- An opcode is that of its operation without operands, with the operands put into their places. -/
theorem encode_eq (op : Operation) : op.encode = op.kind.value + op.operandBits := by
  cases op <;> simp only [encode, kind, Kind.value, operandBits] <;> omega

variable {w : Int}

/-! ### Patterns and opcodes -/

/-- The opcode of an operation matches its pattern. -/
theorem matches_encode (op : Operation) : Opcode.Matches op.encode op.kind.pattern := by
  cases op with
  | skipIfByte x b | skipUnlessByte x b | loadByte x b | addByte x b | random x b =>
    have := b.toNat_lt
    simp [Opcode.Matches, Opcode.digits, Opcode.prescribed?, kind, Kind.pattern, encode]
    omega
  | _ =>
    simp [Opcode.Matches, Opcode.digits, Opcode.prescribed?, kind, Kind.pattern, encode] <;> omega

/-- The fields of a word that matches a pattern, put back into their places, spell the word. -/
theorem encode_ofKind (hw : Opcode.IsWord w) {k : Kind} (h : Opcode.Matches w k.pattern) :
    ((Instruction.ofKind k w).operation.encode : Int) = w := by
  obtain ⟨hnibbles, haddress, hbyte⟩ := Opcode.fields_eq hw
  rw [Opcode.Matches, Opcode.digits_eq] at h
  cases k <;>
    simp [Opcode.prescribed?, Kind.pattern] at h <;>
    simp only [Instruction.operation, Instruction.ofKind, encode] <;>
    omega

/-- Some operation has a word as its opcode just if the word matches some pattern. -/
theorem exists_encode_eq_iff (hw : Opcode.IsWord w) :
    (∃ op : Operation, (op.encode : Int) = w) ↔ ∃ k : Kind, Opcode.Matches w k.pattern := by
  constructor
  · rintro ⟨op, rfl⟩
    exact ⟨op.kind, op.matches_encode⟩
  · rintro ⟨k, h⟩
    exact ⟨_, encode_ofKind hw h⟩

/-- A pattern without letters is matched by one word only. -/
theorem matches_fixed_iff (hw : Opcode.IsWord w) :
    (Opcode.Matches w Kind.clearScreen.pattern ↔ w = 0x00E0) ∧
      (Opcode.Matches w Kind.ret.pattern ↔ w = 0x00EE) := by
  constructor
  · constructor
    · exact fun h => (encode_ofKind hw h).symm
    · rintro rfl
      exact clearScreen.matches_encode
  · constructor
    · exact fun h => (encode_ofKind hw h).symm
    · rintro rfl
      exact ret.matches_encode

/-! ### Decoding -/

theorem kind_operation (i : Instruction) : i.operation.kind = i.kind := by
  obtain ⟨k, -, -, -, -, -, -⟩ := i
  cases k <;> rfl

namespace Kind

variable {k : Kind}

/-- Which operation an opcode stands for is decided with its operands or without them. -/
theorem ofOpcode?_eq_some_iff :
    ofOpcode? w = some k ↔ Operation.ofOpcode? w = some (Instruction.ofKind k w).operation := by
  rw [ofOpcode?_eq_map]
  constructor
  · intro h
    rw [h, Option.map_some]
  · intro h
    obtain ⟨k', hk', hop⟩ := Option.map_eq_some_iff.1 h
    have hkind := congrArg kind hop
    rw [kind_operation, kind_operation] at hkind
    rw [hk']
    exact congrArg some hkind

/-- A word is decoded to an operation just if it suits the operation. -/
theorem ofOpcode?_eq_some_iff_suits (hw : Opcode.IsWord w) : ofOpcode? w = some k ↔ k.Suits w := by
  obtain ⟨hclear, hret⟩ := matches_fixed_iff hw
  rw [ofOpcode?_eq_some_iff, Operation.ofOpcode?_eq_some_iff hw, Suits, hclear, hret]
  constructor
  · rintro ⟨hencode, hnative⟩
    refine ⟨?_, ?_⟩
    · have h := (Instruction.ofKind k w).operation.matches_encode
      rwa [hencode, kind_operation] at h
    · rintro rfl
      exact hnative _ rfl
  · rintro ⟨hmatch, hnative⟩
    refine ⟨encode_ofKind hw hmatch, fun a ha => hnative ?_⟩
    have hkind := congrArg kind ha
    rwa [kind_operation] at hkind

/-- A word is not decoded just if it matches no pattern. -/
theorem ofOpcode?_eq_none_iff (hw : Opcode.IsWord w) :
    ofOpcode? w = none ↔ ∀ k : Kind, ¬ Opcode.Matches w k.pattern := by
  have hnone : ofOpcode? w = none ↔ Operation.ofOpcode? w = none := by
    rw [ofOpcode?_eq_map, Option.map_eq_none_iff]
  rw [hnone, Operation.ofOpcode?_eq_none_iff hw, ← not_exists, ← not_exists,
    exists_encode_eq_iff hw]

/-- What the table holds under a nibble that stands alone. -/
theorem table_lookup_first (n : Fin 16) :
    table.lookup (0x1000 * (n : Nat)) = leading[(n : Nat)]? := by
  fin_cases n <;> rfl

/-- Outside of sixteen bits, only the family of an opcode counts: its first nibble, with all that is
above it, is none of those that are shared. -/
theorem ofOpcode?_of_not_isWord (hw : ¬ Opcode.IsWord w) :
    ofOpcode? w = leading[(Opcode.family w : Nat)]? := by
  have hfirst : ∀ n : Int, 0 ≤ n ∧ n < 16 → w / 4096 ≠ n := by
    intro n hn h
    exact hw ⟨by omega, by omega⟩
  rw [ofOpcode?_of_first_ne_zero (hfirst 0x0 (by decide)),
    mask_of_not_shared (hfirst 0x0 (by decide)) (hfirst 0x8 (by decide)) (hfirst 0xE (by decide))
      (hfirst 0xF (by decide)), Opcode.masked_first, table_lookup_first]

end Kind

end Operation

namespace Instruction

variable {w : Int}

/-- The opcode stands for no instruction, and is refused as one that does not. -/
def Unimplemented (w : Int) : Prop :=
  ∃ f, decode w = .error (.fault f) ∧ f.kind = .unimplementedInstruction

theorem exists_decode_iff {k : Operation.Kind} :
    (∃ i, decode w = .ok i ∧ i.kind = k) ↔ Operation.Kind.ofOpcode? w = some k := by
  simp only [decode_eq_ok_iff, decode?_eq_some_iff]
  constructor
  · rintro ⟨_, ⟨k', hk', rfl⟩, rfl⟩
    exact hk'
  · intro h
    exact ⟨_, ⟨k, h, rfl⟩, rfl⟩

theorem unimplemented_iff : Unimplemented w ↔ Operation.Kind.ofOpcode? w = none := by
  unfold Unimplemented decode decode?
  cases Operation.Kind.ofOpcode? w with
  | none => exact ⟨fun _ => rfl, fun _ => ⟨_, rfl, rfl⟩⟩
  | some k =>
    refine iff_of_false ?_ nofun
    rintro ⟨f, h, -⟩
    cases h

/-- The fields of a decoded instruction, as quotients and remainders of its opcode. -/
theorem fields_of_decode {i : Instruction} (h : decode w = .ok i) :
    i.opcode = w ∧ ((i.address : Nat) : Int) = w % 4096 ∧ ((i.x : Nat) : Int) = w / 256 % 16 ∧
      ((i.y : Nat) : Int) = w / 16 % 16 ∧ ((i.nibble : Nat) : Int) = w % 16 ∧
      (i.byte.toNat : Int) = w % 256 := by
  obtain ⟨k, -, rfl⟩ := decode?_eq_some_iff.1 (decode_eq_ok_iff.1 h)
  exact ⟨rfl, Opcode.coe_address w, Opcode.coe_x w, Opcode.coe_y w, Opcode.coe_nibble w,
    Opcode.toNat_byte w⟩

/-- The operands of a decoded word, put back into their places, spell the word again. -/
theorem value_add_operandBits (hw : Opcode.IsWord w) {i : Instruction} (h : decode w = .ok i) :
    ((i.kind.value + i.operation.operandBits : Nat) : Int) = w := by
  obtain ⟨hop, -⟩ := of_decode?_eq_some (decode_eq_ok_iff.1 h)
  rw [← Operation.kind_operation, ← Operation.encode_eq]
  exact Operation.encode_of_ofOpcode? hw hop

/-- **Decoding goes by the patterns.** Every integer is decoded or refused, and an instruction keeps
its opcode and the fields of it. A word of sixteen bits is decoded to the one operation that it
suits, from which it is spelled again, and is refused if it matches no pattern. Any other integer is
decoded by its family alone. -/
theorem decode_by_pattern (w : Int) :
    ((∃ i, decode w = .ok i) ∨ Unimplemented w) ∧
    (∀ i, decode w = .ok i →
      i.opcode = w ∧ ((i.address : Nat) : Int) = w % 4096 ∧ ((i.x : Nat) : Int) = w / 256 % 16 ∧
        ((i.y : Nat) : Int) = w / 16 % 16 ∧ ((i.nibble : Nat) : Int) = w % 16 ∧
        (i.byte.toNat : Int) = w % 256) ∧
    (Opcode.IsWord w →
      (∀ k : Operation.Kind, (∃ i, decode w = .ok i ∧ i.kind = k) ↔ k.Suits w) ∧
      (Unimplemented w ↔ ∀ k : Operation.Kind, ¬ Opcode.Matches w k.pattern) ∧
      (∀ j k : Operation.Kind, j.Suits w → k.Suits w → j = k) ∧
      ∀ i, decode w = .ok i → ((i.kind.value + i.operation.operandBits : Nat) : Int) = w) ∧
    (¬ Opcode.IsWord w →
      match Operation.Kind.leading[(w / 4096 % 16).toNat]? with
      | some k => ∃ i, decode w = .ok i ∧ i.kind = k
      | none => Unimplemented w) := by
  refine ⟨?_, fun i => fields_of_decode, fun hw => ⟨fun k => ?_, ?_, fun j k hj hk => ?_,
    fun i => value_add_operandBits hw⟩, fun hw => ?_⟩
  · cases hk : Operation.Kind.ofOpcode? w with
    | none => exact .inr (unimplemented_iff.2 hk)
    | some k =>
      obtain ⟨i, hi, -⟩ := exists_decode_iff.2 hk
      exact .inl ⟨i, hi⟩
  · rw [exists_decode_iff, Operation.Kind.ofOpcode?_eq_some_iff_suits hw]
  · rw [unimplemented_iff, Operation.Kind.ofOpcode?_eq_none_iff hw]
  · rw [← Operation.Kind.ofOpcode?_eq_some_iff_suits hw] at hj hk
    exact Option.some.inj (hj.symm.trans hk)
  · have hfamily : (w / 4096 % 16).toNat = Opcode.family w := rfl
    have hkind := Operation.Kind.ofOpcode?_of_not_isWord hw
    rw [hfamily]
    cases hlead : Operation.Kind.leading[(Opcode.family w : Nat)]? with
    | none => exact unimplemented_iff.2 (hkind.trans hlead)
    | some k => exact exists_decode_iff.2 (hkind.trans hlead)

/-- Three opcodes that show where the rules part. The last nibble of `5AB8` is a field that is kept;
`18004` is no word, so that its last nibble does not make it an addition; and the family of `-1FFF`
is `E`. -/
theorem decode_by_pattern_of_three :
    (∃ i, decode 0x5AB8 = .ok i ∧ i.kind = .skipIfSame ∧ (i.nibble : Nat) = 0x8) ∧
      (∃ i, decode 0x18004 = .ok i ∧ i.kind = .copy) ∧ Unimplemented (-0x1FFF) := by
  refine ⟨?_, ?_, ?_⟩
  · obtain ⟨-, hfields, hword, -⟩ := decode_by_pattern 0x5AB8
    have hmatch : Opcode.Matches 0x5AB8 Operation.Kind.skipIfSame.pattern :=
      (Operation.skipIfSame 0xA 0xB 0x8).matches_encode
    obtain ⟨i, hi, hkind⟩ := ((hword (by decide)).1 .skipIfSame).2 ⟨hmatch, nofun⟩
    obtain ⟨-, -, -, -, hnibble, -⟩ := hfields i hi
    exact ⟨i, hi, hkind, by omega⟩
  · obtain ⟨-, -, -, hwide⟩ := decode_by_pattern 0x18004
    exact hwide (by decide)
  · obtain ⟨-, -, -, hwide⟩ := decode_by_pattern (-0x1FFF)
    exact hwide (by decide)

end Instruction

end Chip8
